import TsCli.Lib.Runs
import TsCli.Session.ConnectionStatistics

/-!
# Loss tracking

A `LossTracker` sees the packet ids of a stream of numbered packets. The numbers themselves say
what it should count: those behind the highest one that did not arrive before the highest one was
more than `reorderRetention` ahead of them (`lostNumbers`). `Counts` says how a tracker stands to
the numbers of the packets that it has seen.
-/

namespace TsCli

namespace ConnectionStatistics

namespace LossTracker

/-! ## Lost numbers -/

/-- The highest number, of the first one and those after it. -/
def highest (first : ℕ) (numbers : List ℕ) : ℕ := numbers.foldl max first

/-- Every number is less than half the range of a packet id away from the highest one before it. -/
def Near (first : ℕ) (numbers : List ℕ) : Prop :=
  Runs.Along max (fun highest number => number < highest + 32768 ∧ highest < number + 32768) first
    numbers

/-- The number arrived while the highest one was not too far ahead. -/
def InTime (first : ℕ) (numbers : List ℕ) (number : ℕ) : Prop :=
  ∃ front ∈ numbers.inits,
    front.getLast? = some number ∧ highest first front ≤ number + reorderRetention

instance (first : ℕ) (numbers : List ℕ) : DecidablePred (InTime first numbers) :=
  fun _ => inferInstanceAs (Decidable (∃ _ ∈ _, _))

/-- The numbers that did not arrive in time. -/
def lostNumbers (first : ℕ) (numbers : List ℕ) : Finset ℕ :=
  (Finset.Ioc first (highest first numbers)).filter fun number => ¬ InTime first numbers number

section Numbers

variable {first number : ℕ} {numbers : List ℕ}

theorem highest_append : highest first (numbers ++ [number]) = max (highest first numbers) number := by
  simp [highest]

theorem first_le_highest : first ≤ highest first numbers := by
  induction numbers using List.reverseRecOn with
  | nil => exact le_rfl
  | append_singleton numbers number ih =>
    rw [highest_append]
    exact le_max_of_le_left ih

theorem le_highest (h : number ∈ numbers) : number ≤ highest first numbers := by
  induction numbers using List.reverseRecOn with
  | nil => exact absurd h List.not_mem_nil
  | append_singleton numbers last ih =>
    rw [highest_append]
    rcases List.mem_append.1 h with h | h
    · exact le_max_of_le_left (ih h)
    · exact le_max_of_le_right (List.mem_singleton.1 h).le

theorem InTime.mem (h : InTime first numbers number) : number ∈ numbers := by
  obtain ⟨front, hfront, hlast, -⟩ := h
  exact ((List.mem_inits _ _).1 hfront).subset (List.mem_of_getLast? hlast)

theorem inTime_append {last : ℕ} : InTime first (numbers ++ [last]) number ↔
    InTime first numbers number ∨
      number = last ∧ max (highest first numbers) last ≤ last + reorderRetention := by
  unfold InTime
  simp only [List.mem_inits]
  constructor
  · rintro ⟨front, hfront, hlast, hle⟩
    rcases List.prefix_concat_iff.1 hfront with rfl | hfront
    · rw [List.getLast?_concat] at hlast
      obtain rfl := Option.some.inj hlast
      rw [highest_append] at hle
      exact .inr ⟨rfl, hle⟩
    · exact .inl ⟨front, hfront, hlast, hle⟩
  · rintro (⟨front, hfront, hlast, hle⟩ | ⟨rfl, hle⟩)
    · exact ⟨front, hfront.trans (List.prefix_append _ _), hlast, hle⟩
    · refine ⟨numbers ++ [number], List.prefix_rfl, List.getLast?_concat, ?_⟩
      rwa [highest_append]

theorem mem_lostNumbers : number ∈ lostNumbers first numbers ↔
    (first < number ∧ number ≤ highest first numbers) ∧ ¬ InTime first numbers number := by
  unfold lostNumbers
  rw [Finset.mem_filter, Finset.mem_Ioc]

/-- The highest number is there. -/
theorem highest_notMem_lostNumbers : highest first numbers ∉ lostNumbers first numbers := by
  rw [mem_lostNumbers]
  rintro ⟨⟨hlt, -⟩, hnot⟩
  refine hnot ?_
  clear hnot
  induction numbers using List.reverseRecOn with
  | nil => exact absurd hlt (lt_irrefl _)
  | append_singleton numbers last ih =>
    rw [highest_append] at hlt ⊢
    rw [inTime_append]
    rcases le_total last (highest first numbers) with hle | hle
    · rw [max_eq_left hle] at hlt ⊢
      exact .inl (ih hlt)
    · rw [max_eq_right hle]
      exact .inr ⟨rfl, Nat.le_add_right _ _⟩

/-- A number ahead of the highest one leaves a gap. -/
theorem lostNumbers_of_lt (h : highest first numbers < number) :
    lostNumbers first (numbers ++ [number]) =
      lostNumbers first numbers ∪ Finset.Ioo (highest first numbers) number := by
  have hfirst : first ≤ highest first numbers := first_le_highest
  ext other
  rw [Finset.mem_union, mem_lostNumbers, mem_lostNumbers, Finset.mem_Ioo, highest_append,
    inTime_append, max_eq_right h.le]
  constructor
  · rintro ⟨⟨hlt, hle⟩, hnot⟩
    rw [not_or] at hnot
    by_cases hother : other ≤ highest first numbers
    · exact .inl ⟨⟨hlt, hother⟩, hnot.1⟩
    · refine .inr ⟨not_le.1 hother, lt_of_le_of_ne hle fun heq => hnot.2 ⟨heq, ?_⟩⟩
      exact Nat.le_add_right _ _
  · rintro (⟨⟨hlt, hle⟩, hnot⟩ | ⟨hlt, hlt'⟩)
    · refine ⟨⟨hlt, hle.trans h.le⟩, not_or.2 ⟨hnot, fun heq => ?_⟩⟩
      exact absurd (heq.1 ▸ hle) (not_le.2 h)
    · refine ⟨⟨hfirst.trans_lt hlt, hlt'.le⟩, not_or.2 ⟨fun hin => ?_, fun heq => hlt'.ne heq.1⟩⟩
      exact absurd (le_highest hin.mem) (not_le.2 hlt)

/-- A number that is not ahead fills its gap, unless it is too late. -/
theorem lostNumbers_of_le (h : number ≤ highest first numbers) :
    lostNumbers first (numbers ++ [number]) =
      if highest first numbers ≤ number + reorderRetention then
        (lostNumbers first numbers).erase number
      else lostNumbers first numbers := by
  ext other
  rw [mem_lostNumbers, highest_append, inTime_append, max_eq_left h]
  split_ifs with hin
  · rw [Finset.mem_erase, mem_lostNumbers]
    tauto
  · rw [mem_lostNumbers]
    tauto

/-- Of a gap, all but the last 64 numbers are too late at once. -/
theorem card_gap_expired (high number : ℕ) :
    ((Finset.Ioo high number).filter (· + reorderRetention < number)).card =
      number - high - 1 - min (number - high - 1) reorderRetention := by
  have hIoo : (Finset.Ioo high number).filter (· + reorderRetention < number) =
      Finset.Ioo high (number - reorderRetention) := by
    ext other
    simp only [Finset.mem_filter, Finset.mem_Ioo]
    omega
  rw [hIoo, Nat.card_Ioo]
  omega

/-- What becomes too late with a number ahead: numbers lost before, and a part of the gap. -/
theorem card_expired_of_lt (h : highest first numbers < number) :
    ((lostNumbers first (numbers ++ [number])).filter (· + reorderRetention < number)).card =
      ((lostNumbers first numbers).filter (· + reorderRetention < highest first numbers)).card +
        (((lostNumbers first numbers).filter (· + reorderRetention < number)).filter
          fun other => ¬ other + reorderRetention < highest first numbers).card +
        (number - highest first numbers - 1 - min (number - highest first numbers - 1)
          reorderRetention) := by
  have hdisjoint : Disjoint
      ((lostNumbers first numbers).filter (· + reorderRetention < number))
      ((Finset.Ioo (highest first numbers) number).filter (· + reorderRetention < number)) := by
    refine Finset.disjoint_left.2 fun other hother hother' => ?_
    have hle := (mem_lostNumbers.1 (Finset.mem_filter.1 hother).1).1.2
    exact absurd hle (not_le.2 (Finset.mem_Ioo.1 (Finset.mem_filter.1 hother').1).1)
  have hcounted : ((lostNumbers first numbers).filter (· + reorderRetention < number)).filter
      (· + reorderRetention < highest first numbers) =
        (lostNumbers first numbers).filter (· + reorderRetention < highest first numbers) := by
    rw [Finset.filter_filter]
    refine Finset.filter_congr fun other _ => ?_
    omega
  rw [lostNumbers_of_lt h, Finset.filter_union, Finset.card_union_of_disjoint hdisjoint,
    card_gap_expired, ← Finset.card_filter_add_card_filter_not
      (· + reorderRetention < highest first numbers), hcounted]

end Numbers

/-! ## Counting -/

/-- What the sequences of a tracker are less than the numbers, from the first one's packet id on. -/
def offset (first : ℕ) : ℕ := 65536 * (first / 65536)

theorem offset_le (first : ℕ) : offset first ≤ first := Nat.mul_div_le first 65536

/-- The tracker has seen the numbers: it keeps those as missing that can still arrive in time, and
has counted the others. -/
structure Counts (first : ℕ) (numbers : List ℕ) (tracker : LossTracker) : Prop where
  initialized : tracker.initialized = true
  highestSequence : tracker.highestSequence + offset first = highest first numbers
  expected : tracker.expected + first = highest first numbers + 1
  missing : ∀ sequence, sequence ∈ tracker.missing ↔
    sequence + offset first ∈ lostNumbers first numbers ∧
      highest first numbers ≤ sequence + offset first + reorderRetention
  confirmedLost : tracker.confirmedLost =
    ((lostNumbers first numbers).filter (· + reorderRetention < highest first numbers)).card

theorem card_eq_of_offset (first : ℕ) {A B : Finset ℕ} (h : ∀ a, a ∈ A ↔ a + offset first ∈ B)
    (hB : ∀ b ∈ B, first < b) : A.card = B.card := by
  refine Finset.card_bij (fun a _ => a + offset first) (fun a ha => (h a).1 ha)
    (fun a _ b _ hab => Nat.add_right_cancel hab) fun b hb => ?_
  have hle := (offset_le first).trans (hB b hb).le
  exact ⟨b - offset first, (h _).2 (by rwa [Nat.sub_add_cancel hle]), Nat.sub_add_cancel hle⟩

theorem lt_of_mem_lostNumbers {first number : ℕ} {numbers : List ℕ}
    (h : number ∈ lostNumbers first numbers) : first < number := (mem_lostNumbers.1 h).1.1

section Counts

variable {first number : ℕ} {numbers : List ℕ} {tracker : LossTracker}

/-- The first packet. -/
theorem counts_first (first : ℕ) : Counts first [] (observe (UInt16.ofNat first) {}) where
  initialized := rfl
  highestSequence := by
    show (UInt16.ofNat first).toNat + offset first = first
    rw [UInt16.toNat_ofNat', offset]
    omega
  expected := Nat.add_comm 1 first
  missing sequence := by
    refine iff_of_false (Finset.notMem_empty _) fun h => ?_
    have := (mem_lostNumbers.1 h.1).1
    exact absurd (this.1.trans_le this.2) (lt_irrefl _)
  confirmedLost := by
    show 0 = _
    simp [lostNumbers, highest]

theorem Counts.lost (h : Counts first numbers tracker) :
    tracker.lost = (lostNumbers first numbers).card := by
  have hmissing : tracker.missing.card = ((lostNumbers first numbers).filter
      fun other => ¬ other + reorderRetention < highest first numbers).card := by
    refine card_eq_of_offset first (fun sequence => ?_) fun other hother =>
      lt_of_mem_lostNumbers (Finset.mem_filter.1 hother).1
    rw [h.missing, Finset.mem_filter, not_lt]
  unfold LossTracker.lost
  rw [h.confirmedLost, hmissing, Finset.card_filter_add_card_filter_not]

/-- A packet ahead of the highest one. -/
theorem Counts.advance (h : Counts first numbers tracker) (hlt : highest first numbers < number) :
    Counts first (numbers ++ [number]) (tracker.advance (number - highest first numbers)) := by
  have hhighest : highest first (numbers ++ [number]) = number := by
    rw [highest_append, max_eq_right hlt.le]
  have hsequence := h.highestSequence
  have hexpected := h.expected
  -- the sequences in the gap that are kept
  have hmissing : ∀ sequence, sequence + offset first ∈ lostNumbers first (numbers ++ [number]) ↔
      sequence + offset first ∈ lostNumbers first numbers ∨
        tracker.highestSequence < sequence ∧ sequence + offset first < number := fun sequence => by
    rw [lostNumbers_of_lt hlt, Finset.mem_union, Finset.mem_Ioo]
    exact or_congr_right (and_congr_left fun _ => by omega)
  constructor
  case initialized => rfl
  case highestSequence =>
    show tracker.highestSequence + (number - highest first numbers) + offset first = _
    omega
  case expected =>
    show tracker.expected + (number - highest first numbers) + first = _
    omega
  case missing =>
    intro sequence
    rw [hhighest, hmissing]
    unfold LossTracker.advance reorderRetention
    simp only [Finset.mem_filter, Finset.mem_union, Finset.mem_Ico, h.missing, reorderRetention]
    constructor
    · rintro ⟨⟨hold, -⟩ | ⟨⟨-, hnew⟩, hgap⟩, hretained⟩
      · exact ⟨.inl hold, by omega⟩
      · exact ⟨.inr ⟨hgap, by omega⟩, by omega⟩
    · rintro ⟨hold | ⟨hgap, hnew⟩, hretained⟩
      · exact ⟨.inl ⟨hold, by omega⟩, by omega⟩
      · exact ⟨.inr ⟨⟨by omega, by omega⟩, hgap⟩, by omega⟩
  case confirmedLost =>
    have hexpired : (((lostNumbers first numbers).filter (· + reorderRetention < number)).filter
        fun other => ¬ other + reorderRetention < highest first numbers).card =
          ((tracker.missing ∪ (Finset.Ico (tracker.highestSequence +
            (number - highest first numbers) - min (number - highest first numbers - 1)
              reorderRetention) (tracker.highestSequence + (number - highest first numbers))).filter
                (tracker.highestSequence < ·)).filter (· < tracker.highestSequence +
                  (number - highest first numbers) - reorderRetention)).card := by
      refine (card_eq_of_offset first (fun sequence => ?_) fun other hother => ?_).symm
      · simp only [Finset.mem_filter, Finset.mem_union, Finset.mem_Ico, h.missing]
        constructor
        · rintro ⟨⟨hold, hin⟩ | ⟨⟨hnew, -⟩, -⟩, hexpired⟩
          · exact ⟨⟨hold, by omega⟩, by omega⟩
          · omega
        · rintro ⟨⟨hold, hexpired⟩, hin⟩
          exact ⟨.inl ⟨hold, by omega⟩, by omega⟩
      · exact lt_of_mem_lostNumbers (Finset.mem_filter.1 (Finset.mem_filter.1 hother).1).1
    rw [hhighest, card_expired_of_lt hlt, hexpired, ← h.confirmedLost]
    show tracker.confirmedLost + _ + _ = _
    omega

/-- A packet that is not ahead. -/
theorem Counts.late (h : Counts first numbers tracker) (hle : number ≤ highest first numbers)
    {missing : Finset ℕ} (hmissing : ∀ sequence, sequence ∈ missing ↔
      sequence ∈ tracker.missing ∧ sequence + offset first ≠ number) :
    Counts first (numbers ++ [number]) { tracker with missing } := by
  have hhighest : highest first (numbers ++ [number]) = highest first numbers := by
    rw [highest_append, max_eq_left hle]
  have hlost : ∀ other, other ∈ lostNumbers first (numbers ++ [number]) ↔
      other ∈ lostNumbers first numbers ∧
        ¬ (other = number ∧ highest first numbers ≤ number + reorderRetention) := fun other => by
    rw [lostNumbers_of_le hle]
    split_ifs with hin
    · rw [Finset.mem_erase]
      tauto
    · tauto
  constructor
  case initialized => exact h.initialized
  case highestSequence => exact h.highestSequence.trans hhighest.symm
  case expected =>
    rw [hhighest]
    exact h.expected
  case missing =>
    intro sequence
    show sequence ∈ missing ↔ _
    rw [hmissing, h.missing, hlost, hhighest]
    constructor
    · rintro ⟨⟨hold, hin⟩, hne⟩
      exact ⟨⟨hold, fun hsame => hne hsame.1⟩, hin⟩
    · rintro ⟨⟨hold, hnot⟩, hin⟩
      exact ⟨⟨hold, hin⟩, fun hsame => hnot ⟨hsame, hsame ▸ hin⟩⟩
  case confirmedLost =>
    rw [hhighest]
    refine h.confirmedLost.trans (congrArg Finset.card ?_)
    ext other
    simp only [Finset.mem_filter, hlost]
    constructor
    · rintro ⟨hold, hexpired⟩
      exact ⟨⟨hold, fun hsame => absurd (hsame.1 ▸ hsame.2) (not_le.2 hexpired)⟩, hexpired⟩
    · rintro ⟨⟨hold, -⟩, hexpired⟩
      exact ⟨hold, hexpired⟩

/-- The ids of two near numbers are as far apart as the numbers. -/
theorem toNat_ofNat_sub {low high : ℕ} (hle : low ≤ high) (hnear : high < low + 65536) :
    (UInt16.ofNat high - UInt16.ofNat low).toNat = high - low := by
  rw [UInt16.toNat_sub, UInt16.toNat_ofNat', UInt16.toNat_ofNat']
  omega

/-- **One packet**, at most half a range away from the highest one. -/
theorem Counts.observe (h : Counts first numbers tracker)
    (hnear : number < highest first numbers + 32768 ∧ highest first numbers < number + 32768) :
    Counts first (numbers ++ [number]) (tracker.observe (UInt16.ofNat number)) := by
  have hid : UInt16.ofNat tracker.highestSequence = UInt16.ofNat (highest first numbers) := by
    have hsequence := h.highestSequence
    unfold offset at hsequence
    apply UInt16.toNat_inj.1
    rw [UInt16.toNat_ofNat', UInt16.toNat_ofNat']
    omega
  unfold LossTracker.observe
  rw [if_neg (by simp [h.initialized])]
  simp only [hid]
  rcases lt_trichotomy number (highest first numbers) with hlt | heq | hlt
  · -- behind: the forward distance wraps around
    have hback := toNat_ofNat_sub hlt.le (by omega)
    have hforward : (UInt16.ofNat number - UInt16.ofNat (highest first numbers)).toNat =
        65536 - (highest first numbers - number) := by
      rw [UInt16.toNat_sub, UInt16.toNat_ofNat', UInt16.toNat_ofNat']
      omega
    have hne : UInt16.ofNat number - UInt16.ofNat (highest first numbers) ≠ 0 := fun hzero => by
      rw [hzero] at hforward
      have : (0 : UInt16).toNat = 0 := rfl
      omega
    have hnot : ¬ UInt16.ofNat number - UInt16.ofNat (highest first numbers) < 0x8000 := by
      rw [UInt16.lt_iff_toNat_lt, hforward]
      have : (0x8000 : UInt16).toNat = 32768 := rfl
      omega
    have hsequence := h.highestSequence
    rw [if_neg hne, if_neg hnot, hback]
    split_ifs with hbefore
    · refine h.late hlt.le fun sequence => ⟨fun hmem => ⟨hmem, ?_⟩, fun hmem => hmem.1⟩
      omega
    · refine h.late hlt.le fun sequence => ?_
      show sequence ∈ tracker.missing.erase _ ↔ _
      rw [Finset.mem_erase, and_comm]
      refine and_congr_right fun _ => not_congr ?_
      omega
  · rw [heq, UInt16.sub_self, if_pos rfl]
    refine h.late le_rfl fun sequence => ⟨fun hmem => ⟨hmem, fun hsame => ?_⟩, fun hmem => hmem.1⟩
    have hlost := ((h.missing sequence).1 hmem).1
    exact highest_notMem_lostNumbers (hsame ▸ hlost)
  · have hforward := toNat_ofNat_sub hlt.le (by omega)
    have hne : UInt16.ofNat number - UInt16.ofNat (highest first numbers) ≠ 0 := fun hzero => by
      rw [hzero] at hforward
      have : (0 : UInt16).toNat = 0 := rfl
      omega
    have hpos : UInt16.ofNat number - UInt16.ofNat (highest first numbers) < 0x8000 := by
      rw [UInt16.lt_iff_toNat_lt, hforward]
      have : (0x8000 : UInt16).toNat = 32768 := rfl
      omega
    rw [if_neg hne, if_pos hpos, hforward]
    exact h.advance hlt

end Counts

/-! ## Arrivals -/

/-- A tracker after some packets. -/
def observeAll (tracker : LossTracker) (packetIds : List UInt16) : LossTracker :=
  packetIds.foldl (fun tracker packetId => tracker.observe packetId) tracker

/-- What `Observe` returned for them. -/
def deltas : LossTracker → List UInt16 → List LossDelta
  | _, [] => []
  | tracker, packetId :: packetIds =>
    tracker.delta (tracker.observe packetId) :: (tracker.observe packetId).deltas packetIds

theorem observeAll_append (tracker : LossTracker) (packetIds : List UInt16) (packetId : UInt16) :
    tracker.observeAll (packetIds ++ [packetId]) =
      (tracker.observeAll packetIds).observe packetId := by
  simp [observeAll]

theorem deltas_append (tracker : LossTracker) (packetIds : List UInt16) (packetId : UInt16) :
    tracker.deltas (packetIds ++ [packetId]) = tracker.deltas packetIds ++
      [(tracker.observeAll packetIds).delta (tracker.observeAll (packetIds ++ [packetId]))] := by
  induction packetIds generalizing tracker with
  | nil => rfl
  | cons first packetIds ih =>
    show tracker.delta _ :: (tracker.observe first).deltas (packetIds ++ [packetId]) = _
    rw [ih]
    rfl

/-- The deltas add up. -/
structure Sums (deltas : List LossDelta) (tracker : LossTracker) : Prop where
  expected : (deltas.map LossDelta.expected).sum = tracker.expected
  lost : (deltas.map LossDelta.lost).sum = tracker.lost

theorem Sums.append {sum : List LossDelta} {tracker tracker' : LossTracker} (h : Sums sum tracker)
    (hle : tracker.expected ≤ tracker'.expected) :
    Sums (sum ++ [tracker.delta tracker']) tracker' where
  expected := by
    rw [List.map_append, List.sum_append, h.expected]
    show tracker.expected + (tracker'.expected - tracker.expected + 0) = _
    omega
  lost := by
    rw [List.map_append, List.sum_append, h.lost]
    show (tracker.lost : ℤ) + ((tracker'.lost : ℤ) - tracker.lost + 0) = _
    omega

theorem counts_observeAll {first : ℕ} {numbers : List ℕ} (h : Near first numbers) :
    Counts first numbers (observeAll {} ((first :: numbers).map UInt16.ofNat)) ∧
      Sums (deltas {} ((first :: numbers).map UInt16.ofNat))
        (observeAll {} ((first :: numbers).map UInt16.ofNat)) := by
  induction numbers using List.reverseRecOn with
  | nil => exact ⟨counts_first first, rfl, rfl⟩
  | append_singleton numbers number ih =>
    obtain ⟨hnear, hlast⟩ := Runs.along_append.1 h
    obtain ⟨hcounts, hsums⟩ := ih hnear
    have hnext := hcounts.observe hlast.1
    rw [← List.cons_append, List.map_append, List.map_singleton, observeAll_append]
    refine ⟨hnext, ?_⟩
    rw [deltas_append, observeAll_append]
    refine hsums.append ?_
    have hbefore := hcounts.expected
    have hafter := hnext.expected
    rw [highest_append] at hafter
    omega

/-- Only the last sequences are kept. -/
theorem Counts.card_missing_le {first : ℕ} {numbers : List ℕ} {tracker : LossTracker}
    (h : Counts first numbers tracker) : tracker.missing.card ≤ reorderRetention := by
  have hsequence := h.highestSequence
  have hsubset : tracker.missing ⊆
      Finset.Ico (tracker.highestSequence - reorderRetention) tracker.highestSequence := by
    intro sequence hmem
    obtain ⟨hlost, hin⟩ := (h.missing sequence).1 hmem
    have hle := (mem_lostNumbers.1 hlost).1.2
    have hne : sequence + offset first ≠ highest first numbers := fun heq =>
      highest_notMem_lostNumbers (heq ▸ hlost)
    rw [Finset.mem_Ico]
    omega
  refine (Finset.card_le_card hsubset).trans ?_
  rw [Nat.card_Ico]
  omega

theorem card_lostNumbers_le (first : ℕ) (numbers : List ℕ) :
    (lostNumbers first numbers).card ≤ highest first numbers - first := by
  refine (Finset.card_filter_le _ _).trans ?_
  rw [Nat.card_Ioc]

/-- **The loss tracker counts exactly**, for packets that arrive at most half the range of their
ids away from the highest number. -/
theorem observe_exact (first : ℕ) (numbers : List ℕ) (hnear : Near first numbers) :
    let packetIds := (first :: numbers).map UInt16.ofNat
    let tracker := observeAll {} packetIds
    tracker.expected = highest first numbers - first + 1 ∧
    tracker.lost = (lostNumbers first numbers).card ∧
    tracker.lost < tracker.expected ∧
    tracker.missing.card ≤ reorderRetention ∧
    ((deltas {} packetIds).map LossDelta.expected).sum = tracker.expected ∧
    ((deltas {} packetIds).map LossDelta.lost).sum = tracker.lost := by
  intro packetIds tracker
  obtain ⟨hcounts, hsums⟩ := counts_observeAll hnear
  have hexpected : tracker.expected = highest first numbers - first + 1 := by
    have hcounted : tracker.expected + first = highest first numbers + 1 := hcounts.expected
    have hle : first ≤ highest first numbers := first_le_highest
    omega
  refine ⟨hexpected, hcounts.lost, ?_, hcounts.card_missing_le, hsums.expected, hsums.lost⟩
  rw [hexpected, hcounts.lost]
  exact Nat.lt_succ_of_le (card_lostNumbers_le first numbers)

/-- Around a wrap of the ids: a gap of three, one of which is healed. -/
theorem observe_exact_wrap : Near 65534 [65538, 65536] ∧
    (observeAll {} ([65534, 65538, 65536].map UInt16.ofNat)).lost = 2 := by
  have hnear : Near 65534 [65538, 65536] := by simp [Near, Runs.Along]
  exact ⟨hnear, (observe_exact 65534 [65538, 65536] hnear).2.1.trans (by decide)⟩

end LossTracker

end ConnectionStatistics

end TsCli
