import TsCli.Audio.VoiceJitterBuffer
import TsCli.Lib.Runs

/-!
# The order of the output

The frames that are pending lie ahead of the expected one without large gaps (`WellFormed`): a
frame is taken at most 64 ids ahead, and a start that comes late moves the expected id back by at
most as much. A history keeps the results of the current stream with the ids that they consumed;
these are consecutive.
-/

namespace TsCli

namespace VoiceJitterBuffer

open SerialNumber

/-! ## How far ahead the pending frames are -/

/-- Numbers without large gaps are not larger than their count allows. -/
theorem le_mul_card_of_gaps {gap : ℕ} {S : Finset ℕ}
    (h : ∀ d ∈ S, gap < d → ∃ c ∈ S, c < d ∧ d ≤ c + gap) : ∀ d ∈ S, d ≤ gap * S.card := by
  have hcount : ∀ d, d ∈ S → d ≤ gap * (S.filter (· ≤ d)).card := by
    intro d
    induction d using Nat.strong_induction_on with
    | _ d ih =>
      intro hd
      have hself : d ∈ S.filter (· ≤ d) := Finset.mem_filter.2 ⟨hd, le_rfl⟩
      by_cases hsmall : d ≤ gap
      · have hpos : 0 < (S.filter (· ≤ d)).card := Finset.card_pos.2 ⟨d, hself⟩
        exact hsmall.trans (Nat.le_mul_of_pos_right gap hpos)
      · obtain ⟨c, hc, hlt, hle⟩ := h d hd (not_le.1 hsmall)
        have hsubset : S.filter (· ≤ c) ⊂ S.filter (· ≤ d) := by
          refine Finset.ssubset_iff_of_subset (fun b hb => ?_) |>.2 ⟨d, hself, fun hd' => ?_⟩
          · obtain ⟨hb, hbc⟩ := Finset.mem_filter.1 hb
            exact Finset.mem_filter.2 ⟨hb, hbc.trans hlt.le⟩
          · exact absurd (Finset.mem_filter.1 hd').2 (not_le.2 hlt)
        calc d ≤ c + gap := hle
          _ ≤ gap * (S.filter (· ≤ c)).card + gap := Nat.add_le_add_right (ih c hlt hc) gap
          _ = gap * ((S.filter (· ≤ c)).card + 1) := by ring
          _ ≤ gap * (S.filter (· ≤ d)).card :=
            Nat.mul_le_mul_left gap (Finset.card_lt_card hsubset)
  intro d hd
  exact (hcount d hd).trans (Nat.mul_le_mul_left gap (Finset.card_filter_le _ _))

/-- The pending frames have no large gaps, from the expected id on. -/
def Dense (expected : UInt16) (pending : Registry IncomingEncodedFrame.voiceId) : Prop :=
  ∀ voiceId, pending.contains voiceId = true → 128 < ahead expected voiceId →
    ∃ other, pending.contains other = true ∧ ahead expected other < ahead expected voiceId ∧
      ahead expected voiceId ≤ ahead expected other + 128

/-- The expected id can be moved back. -/
def Movable (expected : UInt16) (pending : Registry IncomingEncodedFrame.voiceId) : Prop :=
  pending.contains expected = true ∨
    ∀ voiceId, pending.contains voiceId = true → ahead expected voiceId ≤ 64

structure WellFormed (buffer : VoiceJitterBuffer) : Prop where
  size : buffer.pending.size ≤ maxPendingFrames
  idle : buffer.expectedVoiceId = none → buffer.pending = ∅ ∧ buffer.started = false
  dense : ∀ expected, buffer.expectedVoiceId = some expected → Dense expected buffer.pending
  movable : buffer.started = false → ∀ expected, buffer.expectedVoiceId = some expected →
    Movable expected buffer.pending

section WellFormed

variable {expected : UInt16} {frame : IncomingEncodedFrame} {buffer : VoiceJitterBuffer}
  {pending : Registry IncomingEncodedFrame.voiceId}

theorem Dense.ahead_le (h : Dense expected pending) {voiceId : UInt16}
    (hpending : pending.contains voiceId = true) : ahead expected voiceId ≤ 128 * pending.size := by
  have hkeys : ∀ other, other ∈ pending.map.keys.toFinset ↔ pending.contains other = true :=
    fun other => by rw [List.mem_toFinset, OrderedMap.mem_keys_iff, Registry.contains_iff]; rfl
  have hgaps : ∀ d ∈ pending.map.keys.toFinset.image (ahead expected), 128 < d →
      ∃ c ∈ pending.map.keys.toFinset.image (ahead expected), c < d ∧ d ≤ c + 128 := by
    intro d hd hlarge
    obtain ⟨other, hother, rfl⟩ := Finset.mem_image.1 hd
    obtain ⟨before, hbefore, hlt, hle⟩ := h other ((hkeys other).1 hother) hlarge
    exact ⟨_, Finset.mem_image_of_mem _ ((hkeys before).2 hbefore), hlt, hle⟩
  have hbound := le_mul_card_of_gaps hgaps _
    (Finset.mem_image_of_mem (ahead expected) ((hkeys voiceId).2 hpending))
  refine hbound.trans (Nat.mul_le_mul_left 128 ?_)
  exact Finset.card_image_le.trans (OrderedMap.size_eq_card_keys pending.map).ge

/-- The end of `Push` leaves no larger gaps than it finds. -/
theorem store_wellFormed (hsize : buffer.pending.size ≤ maxPendingFrames)
    (hexpected : buffer.expectedVoiceId = some expected)
    (hdense : Dense expected (tryEmplace frame buffer.pending))
    (hmovable : buffer.started = false → Movable expected (tryEmplace frame buffer.pending)) :
    WellFormed (buffer.store expected frame) := by
  have hahead : ∀ voiceId, (tryEmplace frame buffer.pending).contains voiceId = true →
      ahead expected voiceId < 32768 := fun voiceId h => by
    have hle := hdense.ahead_le h
    have hcount := size_tryEmplace_le frame buffer.pending
    unfold maxPendingFrames at hsize
    omega
  obtain ⟨hstored, hsame | ⟨-, last, hlast, herased, hmax⟩⟩ := store_spec hsize hahead
  · refine ⟨hstored, fun hnone => absurd (hexpected.symm.trans hnone) nofun,
      fun other hother => ?_, fun hstarted other hother => ?_⟩
    · cases hexpected.symm.trans hother
      rw [hsame]
      exact hdense
    · cases hexpected.symm.trans hother
      rw [hsame]
      exact hmovable hstarted
  · -- what is dropped is ahead of all others
    have hcontains : ∀ voiceId, (buffer.store expected frame).pending.contains voiceId = true ↔
        voiceId ≠ last ∧ (tryEmplace frame buffer.pending).contains voiceId = true :=
      fun voiceId => by
        rw [herased, Registry.contains_iff, Registry.contains_iff, Registry.find?_erase]
        by_cases h : voiceId = last <;> simp [h]
    refine ⟨hstored, fun hnone => absurd (hexpected.symm.trans hnone) nofun,
      fun other hother voiceId hpending hlarge => ?_, fun hstarted other hother => ?_⟩
    · cases hexpected.symm.trans hother
      obtain ⟨-, hold⟩ := (hcontains voiceId).1 hpending
      obtain ⟨before, hbefore, hlt, hle⟩ := hdense voiceId hold hlarge
      refine ⟨before, (hcontains before).2 ⟨?_, hbefore⟩, hlt, hle⟩
      rintro rfl
      exact absurd (hmax voiceId hold) (not_le.2 hlt)
    · cases hexpected.symm.trans hother
      by_cases heq : expected = last
      · refine .inr fun voiceId hpending => ?_
        have hle := hmax voiceId ((hcontains voiceId).1 hpending).2
        rw [← heq, ahead_self] at hle
        omega
      · refine (hmovable hstarted).imp (fun h => (hcontains expected).2 ⟨heq, h⟩)
          fun h voiceId hpending => h voiceId ((hcontains voiceId).1 hpending).2

/-- The first frame of a stream. -/
theorem store_first_wellFormed (hempty : buffer.pending = ∅) :
    WellFormed ((buffer.start frame.voiceId).store frame.voiceId frame) := by
  have hcontains : ∀ voiceId, (tryEmplace frame (buffer.start frame.voiceId).pending).contains
      voiceId = true → voiceId = frame.voiceId := fun voiceId h => by
    refine (contains_tryEmplace.1 h).resolve_right fun hold => ?_
    replace hold : buffer.pending.contains voiceId = true := hold
    rw [hempty] at hold
    cases hold
  refine store_wellFormed ?_ rfl (fun voiceId h hlarge => ?_) fun _ => .inl ?_
  · show buffer.pending.size ≤ _
    rw [hempty]
    exact Nat.zero_le _
  · rw [hcontains voiceId h, ahead_self] at hlarge
    omega
  · exact contains_tryEmplace.2 (.inl rfl)

theorem wellFormed_new : WellFormed {} :=
  ⟨Nat.zero_le _, fun _ => ⟨rfl, rfl⟩, nofun, fun _ => nofun⟩

theorem WellFormed.push (h : WellFormed buffer) (frame : IncomingEncodedFrame) :
    WellFormed (push frame buffer) := by
  have hstep := push_spec frame buffer
  generalize VoiceJitterBuffer.push frame buffer = buffer' at hstep ⊢
  cases hstep with
  | firstMarker hend hnone =>
    obtain ⟨hempty, hstarted⟩ := h.idle hnone
    refine ⟨h.size, nofun, fun expected _ voiceId hpending => ?_, fun _ expected _ =>
      .inr fun voiceId hpending => ?_⟩
    all_goals
      replace hpending : buffer.pending.contains voiceId = true := hpending
      rw [hempty] at hpending
      cases hpending
  | marker expected hend hexpected hahead => exact ⟨h.size, h.idle, h.dense, h.movable⟩
  | lateMarker hend => exact h
  | first hend hnone => exact store_first_wellFormed (h.idle hnone).1
  | late hend hlate => exact h
  | lateStart expected hend hexpected hbehind hstarted hstart hback =>
    have hdense := h.dense expected hexpected
    have hmoved : ∀ voiceId, buffer.pending.contains voiceId = true →
        ahead frame.voiceId voiceId = ahead frame.voiceId expected + ahead expected voiceId :=
      fun voiceId hpending => by
        have hle := hdense.ahead_le hpending
        have hsize := h.size
        unfold maxPendingFrames at hsize
        exact ahead_add (by omega)
    refine store_wellFormed h.size rfl (fun voiceId hpending hlarge => ?_) fun _ =>
      .inl (contains_tryEmplace.2 (.inl rfl))
    have hold : buffer.pending.contains voiceId = true := by
      refine (contains_tryEmplace.1 hpending).resolve_left fun heq => ?_
      rw [heq, ahead_self] at hlarge
      omega
    have hdistance := hmoved voiceId hold
    by_cases hfar : 128 < ahead expected voiceId
    · obtain ⟨before, hbefore, hlt, hle⟩ := hdense voiceId hold hfar
      have hdistance' := hmoved before hbefore
      exact ⟨before, contains_tryEmplace.2 (.inr hbefore), by omega, by omega⟩
    · rcases h.movable hstarted expected hexpected with hcontains | hnear
      · exact ⟨expected, contains_tryEmplace.2 (.inr hcontains), by omega, by omega⟩
      · have hle := hnear voiceId hold
        omega
  | restart hend hrestarts => exact store_first_wellFormed rfl
  | stored expected hend hexpected hahead =>
    refine store_wellFormed h.size hexpected (fun voiceId hpending hlarge => ?_) fun hstarted => ?_
    · have hold : buffer.pending.contains voiceId = true := by
        refine (contains_tryEmplace.1 hpending).resolve_left fun heq => ?_
        rw [heq] at hlarge
        omega
      obtain ⟨before, hbefore, hlt, hle⟩ := h.dense expected hexpected voiceId hold hlarge
      exact ⟨before, contains_tryEmplace.2 (.inr hbefore), hlt, hle⟩
    · refine (h.movable hstarted expected hexpected).imp
        (fun hcontains => contains_tryEmplace.2 (.inr hcontains)) fun hnear voiceId hpending => ?_
      rcases contains_tryEmplace.1 hpending with rfl | hold
      · exact hahead
      · exact hnear voiceId hold

/-- A frame or its loss: everything that stays pending comes one closer. -/
theorem wellFormed_advanced (h : WellFormed buffer)
    (hexpected : buffer.expectedVoiceId = some expected) {buffer' : VoiceJitterBuffer}
    (hsize : buffer'.pending.size ≤ buffer.pending.size)
    (hpending : ∀ voiceId, buffer'.pending.contains voiceId = true ↔
      voiceId ≠ expected ∧ buffer.pending.contains voiceId = true) :
    WellFormed (advanced expected buffer') := by
  refine ⟨hsize.trans h.size, nofun, fun next hnext voiceId hvoiceId hlarge => ?_, nofun⟩
  cases hnext
  obtain ⟨hne, hold⟩ := (hpending voiceId).1 hvoiceId
  have hcloser := ahead_succ (Ne.symm hne)
  obtain ⟨before, hbefore, hlt, hle⟩ := h.dense expected hexpected voiceId hold (by omega)
  have hne' : before ≠ expected := by
    rintro rfl
    rw [ahead_self] at hle
    omega
  have hcloser' := ahead_succ (Ne.symm hne')
  exact ⟨before, (hpending before).2 ⟨hne', hbefore⟩, by omega, by omega⟩

theorem WellFormed.pull (h : WellFormed buffer) : WellFormed (pull buffer).2 := by
  have hstep := pull_spec buffer
  generalize (VoiceJitterBuffer.pull buffer).1 = result at hstep
  generalize (VoiceJitterBuffer.pull buffer).2 = buffer' at hstep ⊢
  cases hstep with
  | idle hnone => exact h
  | prebuffering hprebuffering => exact h
  | waiting expected hexpected hready hfuture =>
    exact ⟨h.size, fun hnone => absurd (hexpected.symm.trans hnone) nofun, h.dense, nofun⟩
  | frame expected ready hexpected hready =>
    refine wellFormed_advanced h hexpected (OrderedMap.size_erase_le _ _) fun voiceId => ?_
    rw [Registry.contains_iff, Registry.contains_iff, Registry.find?_erase]
    by_cases heq : voiceId = expected <;> simp [heq]
  | packetLoss expected hexpected hready hfuture hlosses =>
    refine wellFormed_advanced h hexpected le_rfl fun voiceId =>
      ⟨fun hpending => ⟨?_, hpending⟩, fun hpending => hpending.2⟩
    rintro rfl
    obtain ⟨entry, hentry⟩ := Registry.contains_iff.1 hpending
    replace hentry : buffer.pending.find? voiceId = some entry := hentry
    rw [hready] at hentry
    cases hentry
  | ended hends => exact wellFormed_new

end WellFormed

/-! ## What becomes pending -/

section Lookups

variable {expected voiceId : UInt16} {frame entry : IncomingEncodedFrame}
  {buffer : VoiceJitterBuffer} {pending : Registry IncomingEncodedFrame.voiceId}

theorem find?_evictAll {rounds : ℕ}
    (h : (evictAll expected rounds pending).find? voiceId = some entry) :
    pending.find? voiceId = some entry := by
  induction rounds generalizing pending with
  | zero => exact h
  | succ rounds ih =>
    rw [evictAll] at h
    split_ifs at h
    · have hold := ih h
      unfold evict at hold
      split at hold
      · exact hold
      · rw [Registry.find?_erase] at hold
        split_ifs at hold
        exact hold
    · exact h

theorem find?_store (h : (buffer.store expected frame).pending.find? voiceId = some entry) :
    buffer.pending.find? voiceId = some entry ∨
      entry = frame ∧ frame.voiceId = voiceId ∧ buffer.pending.find? voiceId = none := by
  have hstored := find?_evictAll h
  rw [find?_tryEmplace] at hstored
  split_ifs at hstored with hid
  · cases hold : buffer.pending.find? voiceId with
    | none =>
      rw [hold] at hstored
      exact .inr ⟨(Option.some.inj hstored).symm, hid.symm, rfl⟩
    | some other =>
      rw [hold] at hstored
      exact .inl hstored
  · exact .inl hstored

/-- The frame is stored. -/
theorem push_of_taken (hend : frame.talkEnd = false) (hlate : ¬ Late buffer frame) :
    ∃ stored expected, push frame buffer = store expected frame stored ∧
      (Restarts buffer frame ∧ stored.pending = ∅ ∨
        ¬ Restarts buffer frame ∧ stored.pending = buffer.pending) := by
  have hnot : ∀ expected, buffer.expectedVoiceId = some expected →
      (ahead expected frame.voiceId ≤ 64 ∨ 32768 ≤ ahead expected frame.voiceId) →
        ¬ Restarts buffer frame := by
    rintro expected hexpected hnear ⟨-, other, hother, hfar, hahead⟩
    cases hexpected.symm.trans hother
    omega
  have hstep := push_spec frame buffer
  generalize push frame buffer = buffer' at hstep ⊢
  cases hstep with
  | firstMarker hend' hnone => exact absurd (hend.symm.trans hend') nofun
  | marker expected hend' hexpected hahead => exact absurd (hend.symm.trans hend') nofun
  | lateMarker hend' => exact absurd (hend.symm.trans hend') nofun
  | first hend' hnone =>
    refine ⟨_, _, rfl, .inr ⟨?_, rfl⟩⟩
    rintro ⟨-, expected, hexpected, -⟩
    exact absurd (hnone.symm.trans hexpected) nofun
  | late hend' hlate' => exact absurd hlate' hlate
  | lateStart expected hend' hexpected hbehind hstarted hstart hback =>
    exact ⟨_, _, rfl, .inr ⟨hnot expected hexpected (.inr hbehind), rfl⟩⟩
  | restart hend' hrestarts => exact ⟨_, _, rfl, .inl ⟨hrestarts, rfl⟩⟩
  | stored expected hend' hexpected hahead =>
    exact ⟨_, _, rfl, .inr ⟨hnot expected hexpected (.inl hahead), rfl⟩⟩

theorem push_of_restarts (hrestarts : Restarts buffer frame) :
    push frame buffer = (buffer.reset.start frame.voiceId).store frame.voiceId frame := by
  obtain ⟨hend, expected, hexpected, hfar, hahead⟩ := hrestarts
  have hstep := push_spec frame buffer
  generalize push frame buffer = buffer' at hstep ⊢
  cases hstep with
  | firstMarker hend' hnone => exact absurd (hexpected.symm.trans hnone) nofun
  | marker expected hend' hexpected hahead => exact absurd (hend.symm.trans hend') nofun
  | lateMarker hend' => exact absurd (hend.symm.trans hend') nofun
  | first hend' hnone => exact absurd (hexpected.symm.trans hnone) nofun
  | late hend' hlate =>
    obtain ⟨other, hother, hbehind, -⟩ := hlate
    cases hexpected.symm.trans hother
    omega
  | lateStart other hend' hother hbehind hstarted hstart hback =>
    cases hexpected.symm.trans hother
    omega
  | restart hend' hrestarts => rfl
  | stored other hend' hother hnear =>
    cases hexpected.symm.trans hother
    omega

/-- The pending frames stay as they are. -/
theorem push_of_not_taken (h : frame.talkEnd = true ∨ Late buffer frame) :
    ¬ Restarts buffer frame ∧ (push frame buffer).pending = buffer.pending := by
  have hnot : ¬ Restarts buffer frame := by
    rintro ⟨hend, expected, hexpected, -, hahead⟩
    rcases h with hend' | ⟨other, hother, hbehind, -⟩
    · exact absurd (hend.symm.trans hend') nofun
    · cases hexpected.symm.trans hother
      omega
  refine ⟨hnot, ?_⟩
  have hstep := push_spec frame buffer
  generalize push frame buffer = buffer' at hstep ⊢
  cases hstep with
  | firstMarker hend hnone => rfl
  | marker expected hend hexpected hahead => rfl
  | lateMarker hend => rfl
  | first hend hnone =>
    rcases h with hend' | ⟨other, hother, -⟩
    · exact absurd (hend.symm.trans hend') nofun
    · exact absurd (hnone.symm.trans hother) nofun
  | late hend hlate => rfl
  | lateStart expected hend hexpected hbehind hstarted hstart hback =>
    rcases h with hend' | ⟨other, hother, -, hstart'⟩
    · exact absurd (hend.symm.trans hend') nofun
    · cases hexpected.symm.trans hother
      exact absurd ⟨hstarted, hstart, hback⟩ hstart'
  | restart hend hrestarts => exact absurd hrestarts hnot
  | stored expected hend hexpected hahead =>
    rcases h with hend' | ⟨other, hother, hbehind, -⟩
    · exact absurd (hend.symm.trans hend') nofun
    · cases hexpected.symm.trans hother
      omega

/-- What is pending after a `Push` was pending before, or is the frame under a free id. -/
theorem find?_push (h : (push frame buffer).pending.find? voiceId = some entry) :
    ¬ Restarts buffer frame ∧ buffer.pending.find? voiceId = some entry ∨
      (entry = frame ∧ frame.voiceId = voiceId ∧
        (Restarts buffer frame ∨ buffer.pending.find? voiceId = none)) ∧
        frame.talkEnd = false ∧ ¬ Late buffer frame := by
  by_cases htaken : frame.talkEnd = true ∨ Late buffer frame
  · obtain ⟨hnot, hsame⟩ := push_of_not_taken htaken
    exact .inl ⟨hnot, hsame ▸ h⟩
  · obtain ⟨hend, hlate⟩ := not_or.1 htaken
    rw [Bool.not_eq_true] at hend
    obtain ⟨stored, expected, hpush, hstored⟩ := push_of_taken hend hlate
    rw [hpush] at h
    rcases hstored with ⟨hrestarts, hempty⟩ | ⟨hnot, hsame⟩
    · rcases find?_store h with hold | ⟨heq, hid, -⟩
      · rw [hempty] at hold
        cases hold
      · exact .inr ⟨⟨heq, hid, .inl hrestarts⟩, hend, hlate⟩
    · rcases find?_store h with hold | ⟨heq, hid, hfree⟩
      · exact .inl ⟨hnot, hsame ▸ hold⟩
      · exact .inr ⟨⟨heq, hid, .inr (hsame ▸ hfree)⟩, hend, hlate⟩

/-- `Pull` makes nothing pending. -/
theorem find?_pull (h : (pull buffer).2.pending.find? voiceId = some entry) :
    buffer.pending.find? voiceId = some entry := by
  have hstep := pull_spec buffer
  generalize (pull buffer).1 = result at hstep
  generalize (pull buffer).2 = buffer' at h hstep
  cases hstep with
  | idle hnone => exact h
  | prebuffering hprebuffering => exact h
  | waiting expected hexpected hready hfuture => exact h
  | frame expected ready hexpected hready =>
    replace h : (buffer.pending.erase expected).find? voiceId = some entry := h
    rw [Registry.find?_erase] at h
    split_ifs at h
    exact h
  | packetLoss expected hexpected hready hfuture hlosses => exact h
  | ended hends => cases h

end Lookups

/-! ## Pulling on -/

/-- What some `Pull`s in a row return. -/
def pullResults : ℕ → VoiceJitterBuffer → List JitterPullResult
  | 0, _ => []
  | count + 1, buffer => (pull buffer).1 :: pullResults count (pull buffer).2

/-- The buffer after them. -/
def afterPulls (count : ℕ) (buffer : VoiceJitterBuffer) : VoiceJitterBuffer :=
  (fun buffer => (pull buffer).2)^[count] buffer

section Pulls

variable {buffer : VoiceJitterBuffer}

theorem afterPulls_succ (count : ℕ) (buffer : VoiceJitterBuffer) :
    afterPulls (count + 1) buffer = afterPulls count (pull buffer).2 := rfl

@[simp] theorem length_pullResults (count : ℕ) (buffer : VoiceJitterBuffer) :
    (pullResults count buffer).length = count := by
  induction count generalizing buffer with
  | zero => rfl
  | succ count ih => rw [pullResults, List.length_cons, ih]

theorem pullResults_add (count more : ℕ) (buffer : VoiceJitterBuffer) :
    pullResults (count + more) buffer =
      pullResults count buffer ++ pullResults more (afterPulls count buffer) := by
  induction count generalizing buffer with
  | zero => rw [Nat.zero_add]; rfl
  | succ count ih =>
    rw [Nat.succ_add, pullResults, ih, pullResults, List.cons_append, afterPulls_succ]

/-- What is left to return: each frame, with three losses before it. -/
def work (buffer : VoiceJitterBuffer) : ℕ :=
  4 * buffer.pending.size + (maxConsecutiveLosses - buffer.consecutiveLosses)

/-- `Pull` waits, ends, or has less to do. -/
theorem pull_work (buffer : VoiceJitterBuffer) :
    ((pull buffer).1.kind = .wait ∨ (pull buffer).1.kind = .ended) ∨
      ((pull buffer).1.kind = .frame ∨ (pull buffer).1.kind = .packetLoss) ∧
        work (pull buffer).2 < work buffer := by
  have hstep := pull_spec buffer
  generalize (pull buffer).1 = result at hstep ⊢
  generalize (pull buffer).2 = buffer' at hstep ⊢
  cases hstep with
  | idle hnone => exact .inl (.inl rfl)
  | prebuffering hprebuffering => exact .inl (.inl rfl)
  | waiting expected hexpected hready hfuture => exact .inl (.inl rfl)
  | frame expected ready hexpected hready =>
    refine .inr ⟨.inl rfl, ?_⟩
    have herased : (buffer.pending.erase expected).size + 1 = buffer.pending.size :=
      OrderedMap.size_erase_of_find? hready
    show 4 * (buffer.pending.erase expected).size + (maxConsecutiveLosses - 0) < work buffer
    unfold work maxConsecutiveLosses
    omega
  | packetLoss expected hexpected hready hfuture hlosses =>
    refine .inr ⟨.inr rfl, ?_⟩
    show 4 * buffer.pending.size + (maxConsecutiveLosses - (buffer.consecutiveLosses + 1)) < _
    unfold work
    omega
  | ended hends => exact .inl (.inr rfl)

/-- Without a `Push`, the frames and losses come to an end. -/
theorem exists_drained (buffer : VoiceJitterBuffer) :
    ∃ count, (∀ result ∈ pullResults count buffer,
        result.kind = .frame ∨ result.kind = .packetLoss) ∧
      ((pull (afterPulls count buffer)).1.kind = .wait ∨
        (pull (afterPulls count buffer)).1.kind = .ended) := by
  induction hwork : work buffer using Nat.strong_induction_on generalizing buffer with
  | _ left ih =>
    rcases pull_work buffer with hdone | ⟨hresult, hless⟩
    · exact ⟨0, by simp [pullResults], hdone⟩
    · obtain ⟨count, hresults, hdone⟩ := ih _ (hwork ▸ hless) (pull buffer).2 rfl
      refine ⟨count + 1, fun result hmem => ?_, hdone⟩
      rcases List.mem_cons.1 hmem with rfl | hmem
      · exact hresult
      · exact hresults result hmem

/-- Losses in a row are counted. -/
theorem losses_le {count : ℕ} (hpos : 0 < count)
    (hlosses : ∀ result ∈ pullResults count buffer, result.kind = .packetLoss) :
    buffer.consecutiveLosses + count ≤ maxConsecutiveLosses := by
  induction count generalizing buffer with
  | zero => exact absurd hpos (lt_irrefl _)
  | succ count ih =>
    have hfirst := hlosses _ List.mem_cons_self
    have hnext : buffer.consecutiveLosses < maxConsecutiveLosses ∧
        (pull buffer).2.consecutiveLosses = buffer.consecutiveLosses + 1 := by
      have hstep := pull_spec buffer
      generalize (pull buffer).1 = result at hstep hfirst
      generalize (pull buffer).2 = buffer' at hstep ⊢
      cases hstep with
      | packetLoss expected hexpected hready hfuture hlosses => exact ⟨hlosses, rfl⟩
      | _ => cases hfirst
    rcases Nat.eq_zero_or_pos count with rfl | hcount
    · exact hnext.1
    · have hrest := ih hcount fun result hmem => hlosses result (List.mem_cons_of_mem _ hmem)
      omega

/-- There are at most three losses in a row. -/
theorem not_four_losses (count : ℕ) (buffer : VoiceJitterBuffer) :
    ¬ List.replicate 4 JitterPullKind.packetLoss <:+:
      (pullResults count buffer).map JitterPullResult.kind := by
  rintro ⟨front, back, hinfix⟩
  have hcount : count = front.length + (4 + back.length) := by
    have := congrArg List.length hinfix
    simp at this
    omega
  rw [hcount, pullResults_add, pullResults_add, List.map_append, List.map_append,
    List.append_assoc] at hinfix
  obtain ⟨-, hrest⟩ := List.append_inj hinfix (by simp)
  obtain ⟨hfour, -⟩ := List.append_inj hrest (by simp)
  have hle := losses_le (by norm_num : 0 < 4) fun result hmem => by
    have hkind := List.mem_map_of_mem (f := JitterPullResult.kind) hmem
    rw [← hfour] at hkind
    exact List.eq_of_mem_replicate hkind
  unfold maxConsecutiveLosses at hle
  omega

end Pulls

/-! ## Histories -/

/-- A call. -/
inductive Operation
  | push (frame : IncomingEncodedFrame)
  | pull
  | reset

/-- A buffer, the results of the current stream other than waits, each with the id that it
consumed, and the ids of the frames that earlier streams returned. -/
structure History where
  buffer : VoiceJitterBuffer := {}
  stream : List (UInt16 × JitterPullResult) := []
  earlier : List UInt16 := []

/-- The ids of the frames among some results. -/
def played (stream : List (UInt16 × JitterPullResult)) : List UInt16 :=
  stream.filterMap fun entry =>
    if entry.2.kind = .frame then some entry.2.frame.voiceId else none

namespace History

/-- The buffer was reset. -/
def endStream (h : History) : History :=
  { h with stream := [], earlier := h.earlier ++ played h.stream }

/-- One call. -/
def step (h : History) : Operation → History
  | .push frame =>
    let buffer := VoiceJitterBuffer.push frame h.buffer
    if Restarts h.buffer frame then { h with buffer }.endStream else { h with buffer }
  | .pull =>
    let (result, buffer) := VoiceJitterBuffer.pull h.buffer
    match result.kind with
    | .wait => { h with buffer }
    | .ended => { h with buffer }.endStream
    | .frame | .packetLoss =>
      { h with buffer, stream := h.stream ++ [(h.buffer.expectedVoiceId.getD 0, result)] }
  | .reset => { h with buffer := h.buffer.reset }.endStream

/-- The history of some calls on a new buffer. -/
def of (operations : List Operation) : History := operations.foldl step {}

theorem of_append (operations : List Operation) (operation : Operation) :
    of (operations ++ [operation]) = (of operations).step operation := by
  simp [of]

theorem buffer_step (h : History) (operation : Operation) :
    (h.step operation).buffer = match operation with
      | .push frame => VoiceJitterBuffer.push frame h.buffer
      | .pull => (VoiceJitterBuffer.pull h.buffer).2
      | .reset => h.buffer.reset := by
  cases operation with
  | push frame =>
    unfold step
    dsimp only
    split_ifs <;> rfl
  | pull =>
    unfold step
    generalize VoiceJitterBuffer.pull h.buffer = out
    obtain ⟨result, buffer⟩ := out
    cases hkind : result.kind <;> simp [hkind, endStream]
  | reset => rfl

theorem step_push_of_restarts {h : History} {frame : IncomingEncodedFrame}
    (hrestarts : Restarts h.buffer frame) : h.step (.push frame) =
      { h with buffer := VoiceJitterBuffer.push frame h.buffer }.endStream := if_pos hrestarts

theorem step_push_of_not {h : History} {frame : IncomingEncodedFrame}
    (hrestarts : ¬ Restarts h.buffer frame) : h.step (.push frame) =
      { h with buffer := VoiceJitterBuffer.push frame h.buffer } := if_neg hrestarts

/-! ## Consecutive ids -/

/-- `count` ids from `first` on. -/
def ids (first : UInt16) (count : ℕ) : List UInt16 :=
  (List.range count).map fun i => first + UInt16.ofNat i

theorem ids_succ (first : UInt16) (count : ℕ) :
    ids first (count + 1) = ids first count ++ [first + UInt16.ofNat count] := by
  unfold ids
  rw [List.range_succ, List.map_append, List.map_singleton]

/-- The stream is in order, and the next id is expected. -/
structure InOrder (h : History) : Prop where
  wellFormed : h.buffer.WellFormed
  order : h.stream ≠ [] → ∃ first, h.stream.map Prod.fst = ids first h.stream.length ∧
    h.buffer.expectedVoiceId = some (first + UInt16.ofNat h.stream.length) ∧
    h.buffer.started = true

variable {h : History}

theorem InOrder.push (horder : h.InOrder) (frame : IncomingEncodedFrame) :
    (h.step (.push frame)).InOrder := by
  have hwell := horder.wellFormed.push frame
  by_cases hrestarts : Restarts h.buffer frame
  · rw [step_push_of_restarts hrestarts]
    exact ⟨hwell, fun hnil => absurd rfl hnil⟩
  rw [step_push_of_not hrestarts]
  refine ⟨hwell, fun hstream => ?_⟩
  obtain ⟨first, hids, hexpected, hstarted⟩ := horder.order hstream
  refine ⟨first, hids, ?_⟩
  have hstep := push_spec frame h.buffer
  show (VoiceJitterBuffer.push frame h.buffer).expectedVoiceId = _ ∧
    (VoiceJitterBuffer.push frame h.buffer).started = true
  generalize VoiceJitterBuffer.push frame h.buffer = buffer' at hstep ⊢
  cases hstep with
  | firstMarker hend hnone => exact absurd (hexpected.symm.trans hnone) nofun
  | marker expected hend hexpected' hahead => exact ⟨hexpected, hstarted⟩
  | lateMarker hend => exact ⟨hexpected, hstarted⟩
  | first hend hnone => exact absurd (hexpected.symm.trans hnone) nofun
  | late hend hlate => exact ⟨hexpected, hstarted⟩
  | lateStart expected hend hexpected' hbehind hnot hstart hback =>
    exact absurd (hnot.symm.trans hstarted) nofun
  | restart hend hrestarts' => exact absurd hrestarts' hrestarts
  | stored expected hend hexpected' hahead => exact ⟨hexpected, hstarted⟩

/-- A frame or its loss, which consumes the expected id. -/
theorem InOrder.consume (horder : h.InOrder) {expected : UInt16} {result : JitterPullResult}
    {buffer : VoiceJitterBuffer} (hexpected : h.buffer.expectedVoiceId = some expected)
    (hwell : (advanced expected buffer).WellFormed) :
    ({ h with
      buffer := advanced expected buffer
      stream := h.stream ++ [(h.buffer.expectedVoiceId.getD 0, result)] } : History).InOrder := by
  refine ⟨hwell, fun _ => ?_⟩
  by_cases hnil : h.stream = []
  · refine ⟨expected, ?_, ?_, rfl⟩
    · simp [hnil, hexpected, ids]
    · simp [hnil, advanced]
  · obtain ⟨first, hids, hexpected', -⟩ := horder.order hnil
    rw [hexpected] at hexpected'
    have heq : expected = first + UInt16.ofNat h.stream.length := Option.some.inj hexpected'
    refine ⟨first, ?_, ?_, rfl⟩
    · rw [List.map_append, hids, List.length_append, List.length_singleton, ids_succ, hexpected, heq]
      rfl
    · show some (expected + 1) = _
      rw [heq, List.length_append, List.length_singleton, UInt16.ofNat_add, UInt16.add_assoc]
      rfl

theorem InOrder.pull (horder : h.InOrder) : (h.step .pull).InOrder := by
  have hwell := horder.wellFormed.pull
  have hstep := pull_spec h.buffer
  unfold step
  generalize VoiceJitterBuffer.pull h.buffer = out at hstep hwell ⊢
  obtain ⟨result, buffer'⟩ := out
  cases hstep with
  | idle hnone => exact horder
  | prebuffering hprebuffering => exact horder
  | waiting expected hexpected hready hfuture =>
    refine ⟨hwell, fun hstream => ?_⟩
    obtain ⟨first, hids, hexpected', -⟩ := horder.order hstream
    exact ⟨first, hids, hexpected', rfl⟩
  | frame expected ready hexpected hready => exact horder.consume hexpected hwell
  | packetLoss expected hexpected hready hfuture hlosses => exact horder.consume hexpected hwell
  | ended hends => exact ⟨hwell, fun hnil => absurd rfl hnil⟩

theorem inOrder_of (operations : List Operation) : (of operations).InOrder := by
  refine Runs.invariant (I := InOrder) (fun h operation horder => ?_)
    ⟨wellFormed_new, fun hnil => absurd rfl hnil⟩ operations
  cases operation with
  | push frame => exact horder.push frame
  | pull => exact horder.pull
  | reset => exact ⟨wellFormed_new, fun hnil => absurd rfl hnil⟩

/-- The ids from the first one on. -/
theorem InOrder.map_fst (horder : h.InOrder) :
    ∀ first ∈ h.stream.head?, h.stream.map Prod.fst = ids first.1 h.stream.length := by
  intro first hfirst
  have hnil : h.stream ≠ [] := by
    rintro hnil
    rw [hnil] at hfirst
    cases hfirst
  obtain ⟨start, hids, -⟩ := horder.order hnil
  have hhead : (h.stream.map Prod.fst).head? = some first.1 := by
    rw [List.head?_map, Option.mem_def.1 hfirst, Option.map_some]
  obtain ⟨rest, hrest⟩ := Nat.exists_eq_succ_of_ne_zero (List.length_pos_iff.2 hnil).ne'
  rw [hids, hrest] at hhead
  have hstart : start + UInt16.ofNat 0 = first.1 := by
    simpa [ids, List.range_succ_eq_map] using hhead
  rw [hids, ← hstart]
  simp

/-! ## Where a pending frame comes from -/

/-- The first frame that was pushed with its id since nothing was pending under it: before the
push, unless that restarts the stream, there was nothing, and after it there always is the frame. -/
def FirstPushed (operations : List Operation) (voiceId : UInt16) (frame : IncomingEncodedFrame) :
    Prop :=
  ∃ front back, operations = front ++ .push frame :: back ∧ frame.voiceId = voiceId ∧
    (Restarts (of front).buffer frame ∨ (of front).buffer.pending.find? voiceId = none) ∧
    ∀ middle, middle <+: back →
      (of (front ++ .push frame :: middle)).buffer.pending.find? voiceId = some frame

theorem FirstPushed.append {operations : List Operation} {voiceId : UInt16}
    {frame : IncomingEncodedFrame} (hfirst : FirstPushed operations voiceId frame)
    {operation : Operation}
    (hpending : (of (operations ++ [operation])).buffer.pending.find? voiceId = some frame) :
    FirstPushed (operations ++ [operation]) voiceId frame := by
  obtain ⟨front, back, rfl, hid, hfree, hkept⟩ := hfirst
  refine ⟨front, back ++ [operation], by simp, hid, hfree, fun middle hmiddle => ?_⟩
  rcases List.prefix_concat_iff.1 hmiddle with rfl | hmiddle
  · simpa using hpending
  · exact hkept middle hmiddle

theorem firstPushed_of (operations : List Operation) :
    ∀ voiceId frame, (of operations).buffer.pending.find? voiceId = some frame →
      FirstPushed operations voiceId frame := by
  induction operations using List.reverseRecOn with
  | nil => exact nofun
  | append_singleton operations operation ih =>
    intro voiceId frame hpending
    have hnext := hpending
    rw [of_append, buffer_step] at hpending
    cases operation with
    | push pushed =>
      rcases find?_push hpending with ⟨-, hold⟩ | ⟨⟨rfl, hid, hfree⟩, -⟩
      · exact (ih voiceId frame hold).append hnext
      · refine ⟨operations, [], rfl, hid, hfree, fun middle hmiddle => ?_⟩
        rw [List.prefix_nil.1 hmiddle]
        exact hnext
    | pull => exact (ih voiceId frame (find?_pull hpending)).append hnext
    | reset => cases hpending

/-! ## The output -/

/-- What a `Pull` that hands out the id returns. -/
def Consumes (operations : List Operation) (voiceId : UInt16) (result : JitterPullResult) : Prop :=
  match (of operations).buffer.pending.find? voiceId with
  | some frame =>
    result.kind = .frame ∧ result.frame = frame ∧ FirstPushed operations voiceId frame
  | none =>
    result.kind = .packetLoss ∧
      match (of operations).buffer.pending.find? (voiceId + 1) with
      | some frame => result.hasRecoveryFrame = true ∧ result.frame = frame
      | none => result.hasRecoveryFrame = false

/-- A result that is no wait and no end enters the stream, with the id that it consumes. -/
theorem pull_consumes (operations : List Operation)
    (hresult : (VoiceJitterBuffer.pull (of operations).buffer).1.kind = .frame ∨
      (VoiceJitterBuffer.pull (of operations).buffer).1.kind = .packetLoss) :
    ∃ voiceId, (of (operations ++ [.pull])).stream = (of operations).stream ++
        [(voiceId, (VoiceJitterBuffer.pull (of operations).buffer).1)] ∧
      Consumes operations voiceId (VoiceJitterBuffer.pull (of operations).buffer).1 := by
  rw [of_append]
  have hstep := pull_spec (of operations).buffer
  have hfirst := firstPushed_of operations
  unfold step Consumes
  generalize VoiceJitterBuffer.pull (of operations).buffer = out at hresult hstep ⊢
  obtain ⟨result, buffer'⟩ := out
  cases hstep with
  | frame expected ready hexpected hready =>
    refine ⟨expected, ?_, ?_⟩
    · show _ ++ [(((of operations).buffer.expectedVoiceId.getD 0), _)] = _
      rw [hexpected, Option.getD_some]
    · rw [hready]
      exact ⟨rfl, rfl, hfirst expected ready hready⟩
  | packetLoss expected hexpected hready hfuture hlosses =>
    refine ⟨expected, ?_, ?_⟩
    · show _ ++ [(((of operations).buffer.expectedVoiceId.getD 0), _)] = _
      rw [hexpected, Option.getD_some]
    · rw [hready]
      refine ⟨rfl, ?_⟩
      cases (of operations).buffer.pending.find? (expected + 1) with
      | none => rfl
      | some frame => exact ⟨rfl, rfl⟩
  | _ => rcases hresult with hresult | hresult <;> cases hresult

end History

open History in
/-- **The output is in order, complete and bounded.** After any calls, the results of the current
stream have consumed consecutive ids; the next result that is no wait and no end consumes the
next id, as a frame when one is pending and as a loss otherwise; at most 32 frames are pending, all
of them ahead of the expected one; and from any buffer the frames and the losses come to an end, with
at most three losses in a row. -/
theorem output_in_order (operations : List Operation) :
    let h := History.of operations
    (∀ first ∈ h.stream.head?, h.stream.map Prod.fst = ids first.1 h.stream.length) ∧
    ((pull h.buffer).1.kind = .frame ∨ (pull h.buffer).1.kind = .packetLoss →
      ∃ voiceId, (History.of (operations ++ [.pull])).stream =
          h.stream ++ [(voiceId, (pull h.buffer).1)] ∧
        Consumes operations voiceId (pull h.buffer).1) ∧
    (h.buffer.pending.size ≤ maxPendingFrames ∧
      ∀ voiceId, h.buffer.pending.contains voiceId = true →
        ∃ expected, h.buffer.expectedVoiceId = some expected ∧ ahead expected voiceId < 2 ^ 15) ∧
    ∀ buffer, (∃ count, (∀ result ∈ pullResults count buffer,
          result.kind = .frame ∨ result.kind = .packetLoss) ∧
        ((pull (afterPulls count buffer)).1.kind = .wait ∨
          (pull (afterPulls count buffer)).1.kind = .ended)) ∧
      ∀ count, ¬ List.replicate 4 JitterPullKind.packetLoss <:+:
        (pullResults count buffer).map JitterPullResult.kind := by
  intro h
  have horder : h.InOrder := inOrder_of operations
  refine ⟨horder.map_fst, pull_consumes operations, ⟨horder.wellFormed.size, ?_⟩, fun buffer =>
    ⟨exists_drained buffer, fun count => not_four_losses count buffer⟩⟩
  intro voiceId hpending
  cases hexpected : h.buffer.expectedVoiceId with
  | none =>
    rw [(horder.wellFormed.idle hexpected).1] at hpending
    cases hpending
  | some expected =>
    have hle := (horder.wellFormed.dense expected hexpected).ahead_le hpending
    have hsize := horder.wellFormed.size
    unfold maxPendingFrames at hsize
    exact ⟨expected, rfl, by omega⟩

end VoiceJitterBuffer

end TsCli
