import TsCli.Basic
import TsCli.Lib.Registry
import TsCli.Lib.SerialNumber

/-!
# The jitter buffer

The frames of one talker, between the network and the decoder. `Push` takes a frame in, in any
order, and `Pull` hands out the one with the expected id: the frame, or its loss. `pull_cases` says
what a `Pull` can do, and the lemmas about `push` what a `Push` does to the pending frames.
-/

namespace TsCli

/-- `IncomingEncodedFrame`; `data` is the part of the array that `size` names. -/
structure IncomingEncodedFrame where
  clientId : UInt16 := 0
  voiceId : UInt16 := 0
  codec : UInt8 := 0
  data : Bytes := []
  talkStart : Bool := false
  talkEnd : Bool := false
  deriving DecidableEq

/-- `JitterPullKind`, with `ended` for `End`. -/
inductive JitterPullKind
  | wait
  | frame
  | packetLoss
  | ended
  deriving DecidableEq, Repr

structure JitterPullResult where
  kind : JitterPullKind := .wait
  frame : IncomingEncodedFrame := {}
  streamStart : Bool := false
  hasRecoveryFrame : Bool := false
  deriving DecidableEq

structure VoiceJitterBuffer where
  expectedVoiceId : Option UInt16 := none
  endVoiceId : Option UInt16 := none
  pending : Registry IncomingEncodedFrame.voiceId := ∅
  consecutiveLosses : ℕ := 0
  started : Bool := false
  firstOutput : Bool := false
  deriving DecidableEq

namespace VoiceJitterBuffer

def prebufferFrames : ℕ := 3
def maxPendingFrames : ℕ := 32
def maxReorderDistance : UInt16 := 64
def maxConsecutiveLosses : ℕ := 3

def distance (source target : UInt16) : UInt16 := target - source

/-- `VoiceJitterBuffer::Reset`. -/
def reset (_ : VoiceJitterBuffer) : VoiceJitterBuffer := {}

@[simp] theorem reset_eq (buffer : VoiceJitterBuffer) : buffer.reset = {} := rfl

/-- The stream starts with an id. -/
def start (voiceId : UInt16) (buffer : VoiceJitterBuffer) : VoiceJitterBuffer :=
  { buffer with expectedVoiceId := some voiceId, firstOutput := true }

/-- The search for the pending frame furthest ahead, from the first one on. -/
def furthest (expected : UInt16) (first : UInt16) (pending : List IncomingEncodedFrame) :
    UInt16 × UInt16 :=
  pending.foldl (fun best entry =>
    let distance := distance expected entry.voiceId
    if distance < 0x8000 ∧ best.2 ≤ distance then (entry.voiceId, distance) else best) (first, 0)

/-- One round of the loop at the end of `Push`: the furthest frame is dropped. -/
def evict (expected : UInt16) (pending : Registry IncomingEncodedFrame.voiceId) :
    Registry IncomingEncodedFrame.voiceId :=
  match pending.values with
  | [] => pending
  | first :: _ => pending.erase (furthest expected first.voiceId pending.values).1

/-- The loop. Every round drops a frame, so there are at most as many as there are frames. -/
def evictAll (expected : UInt16) : ℕ → Registry IncomingEncodedFrame.voiceId →
    Registry IncomingEncodedFrame.voiceId
  | 0, pending => pending
  | rounds + 1, pending =>
    if maxPendingFrames < pending.size then evictAll expected rounds (evict expected pending)
    else pending

/-- `m_Pending.try_emplace`. -/
def tryEmplace (frame : IncomingEncodedFrame) (pending : Registry IncomingEncodedFrame.voiceId) :
    Registry IncomingEncodedFrame.voiceId :=
  if pending.contains frame.voiceId then pending else pending.upsert frame

/-- The end of `Push`. -/
def store (expected : UInt16) (frame : IncomingEncodedFrame) (buffer : VoiceJitterBuffer) :
    VoiceJitterBuffer :=
  let pending := tryEmplace frame buffer.pending
  { buffer with pending := evictAll expected pending.size pending }

/-- `VoiceJitterBuffer::Push`. -/
def push (frame : IncomingEncodedFrame) (buffer : VoiceJitterBuffer) : VoiceJitterBuffer :=
  if frame.talkEnd then
    let expected := buffer.expectedVoiceId.getD frame.voiceId
    let buffer := if buffer.expectedVoiceId.isNone then buffer.start frame.voiceId else buffer
    if distance expected frame.voiceId < 0x8000 then
      { buffer with endVoiceId := some frame.voiceId }
    else buffer
  else
    match buffer.expectedVoiceId with
    | none => (buffer.start frame.voiceId).store frame.voiceId frame
    | some expected =>
      let forward := distance expected frame.voiceId
      if 0x8000 ≤ forward then
        let backward := distance frame.voiceId expected
        if !buffer.started && frame.talkStart && backward ≤ maxReorderDistance then
          { buffer with expectedVoiceId := some frame.voiceId }.store frame.voiceId frame
        else buffer
      else if maxReorderDistance < forward then
        (buffer.reset.start frame.voiceId).store frame.voiceId frame
      else buffer.store expected frame

/-- `VoiceJitterBuffer::HasFutureData`. -/
def hasFutureData (buffer : VoiceJitterBuffer) : Bool :=
  match buffer.expectedVoiceId with
  | none => false
  | some expected =>
    let future (voiceId : UInt16) : Bool :=
      0 < distance expected voiceId ∧ distance expected voiceId < 0x8000
    buffer.endVoiceId.any future || buffer.pending.values.any fun entry => future entry.voiceId

/-- `VoiceJitterBuffer::Advance`. -/
def advance (buffer : VoiceJitterBuffer) : VoiceJitterBuffer :=
  { buffer with expectedVoiceId := buffer.expectedVoiceId.map (· + 1) }

/-- `VoiceJitterBuffer::Pull`. -/
def pull (buffer : VoiceJitterBuffer) : JitterPullResult × VoiceJitterBuffer :=
  match buffer.expectedVoiceId with
  | none => ({}, buffer)
  | some expected =>
    if !buffer.started && buffer.endVoiceId = some expected then ({ kind := .ended }, buffer.reset)
    else if !buffer.started && buffer.pending.size < prebufferFrames && buffer.endVoiceId.isNone then
      ({}, buffer)
    else
      let buffer := { buffer with started := true }
      if buffer.endVoiceId = some expected then ({ kind := .ended }, buffer.reset)
      else
        match buffer.pending.find? expected with
        | some ready =>
          ({ kind := .frame, frame := ready, streamStart := buffer.firstOutput },
            { buffer with
              pending := buffer.pending.erase expected
              consecutiveLosses := 0
              firstOutput := false }.advance)
        | none =>
          if !buffer.hasFutureData then ({}, buffer)
          else if buffer.consecutiveLosses < maxConsecutiveLosses then
            let recovery := buffer.pending.find? (expected + 1)
            ({ kind := .packetLoss, frame := recovery.getD {}, hasRecoveryFrame := recovery.isSome },
              { buffer with
                consecutiveLosses := buffer.consecutiveLosses + 1
                firstOutput := false }.advance)
          else ({ kind := .ended }, buffer.reset)

/-! ## What a call can do -/

open SerialNumber

theorem distance_lt_iff {a b : UInt16} : distance a b < 0x8000 ↔ ahead a b < 32768 :=
  UInt16.lt_iff_toNat_lt

theorem le_distance_iff {a b : UInt16} : 0x8000 ≤ distance a b ↔ 32768 ≤ ahead a b :=
  UInt16.le_iff_toNat_le

theorem distance_le_iff {a b : UInt16} : distance a b ≤ maxReorderDistance ↔ ahead a b ≤ 64 :=
  UInt16.le_iff_toNat_le

theorem lt_distance_iff {a b : UInt16} : maxReorderDistance < distance a b ↔ 64 < ahead a b :=
  UInt16.lt_iff_toNat_lt

/-- An id that is still to come. -/
def Future (expected voiceId : UInt16) : Prop :=
  0 < ahead expected voiceId ∧ ahead expected voiceId < 32768

/-- The frame is behind the expected one, and is not taken as a start that comes late. -/
def Late (buffer : VoiceJitterBuffer) (frame : IncomingEncodedFrame) : Prop :=
  ∃ expected ∈ buffer.expectedVoiceId, 32768 ≤ ahead expected frame.voiceId ∧
    ¬ (buffer.started = false ∧ frame.talkStart = true ∧ ahead frame.voiceId expected ≤ 64)

-- named, as the search would go through all the ids
instance (buffer : VoiceJitterBuffer) : DecidablePred (Late buffer) :=
  fun _ => Option.decidableExistsMem _

/-- The frame is too far ahead. -/
def Restarts (buffer : VoiceJitterBuffer) (frame : IncomingEncodedFrame) : Prop :=
  frame.talkEnd = false ∧ ∃ expected ∈ buffer.expectedVoiceId,
    64 < ahead expected frame.voiceId ∧ ahead expected frame.voiceId < 32768

instance (buffer : VoiceJitterBuffer) : DecidablePred (Restarts buffer) :=
  fun _ => @instDecidableAnd _ _ _ (Option.decidableExistsMem _)

/-- The buffer waits for more frames before it starts. -/
def Prebuffering (buffer : VoiceJitterBuffer) : Prop :=
  buffer.started = false ∧ buffer.pending.size < prebufferFrames ∧ buffer.endVoiceId = none

instance : DecidablePred Prebuffering := fun _ => inferInstanceAs (Decidable (_ ∧ _ ∧ _))

/-- A `Pull` would end the stream: at the marker, or after too many losses. -/
def Ends (buffer : VoiceJitterBuffer) : Prop :=
  ∃ expected ∈ buffer.expectedVoiceId, buffer.endVoiceId = some expected ∨
    ¬ Prebuffering buffer ∧ buffer.pending.find? expected = none ∧ buffer.hasFutureData = true ∧
      maxConsecutiveLosses ≤ buffer.consecutiveLosses

instance : DecidablePred Ends := fun _ => Option.decidableExistsMem _

/-- What `Push` can do. -/
inductive PushStep (buffer : VoiceJitterBuffer) (frame : IncomingEncodedFrame) :
    VoiceJitterBuffer → Prop
  | firstMarker (hend : frame.talkEnd = true) (hnone : buffer.expectedVoiceId = none) :
    PushStep buffer frame
      { buffer.start frame.voiceId with endVoiceId := some frame.voiceId }
  | marker (expected : UInt16) (hend : frame.talkEnd = true)
    (hexpected : buffer.expectedVoiceId = some expected)
    (hahead : ahead expected frame.voiceId < 32768) :
    PushStep buffer frame { buffer with endVoiceId := some frame.voiceId }
  | lateMarker (hend : frame.talkEnd = true) : PushStep buffer frame buffer
  | first (hend : frame.talkEnd = false) (hnone : buffer.expectedVoiceId = none) :
    PushStep buffer frame ((buffer.start frame.voiceId).store frame.voiceId frame)
  | late (hend : frame.talkEnd = false) (hlate : Late buffer frame) : PushStep buffer frame buffer
  | lateStart (expected : UInt16) (hend : frame.talkEnd = false)
    (hexpected : buffer.expectedVoiceId = some expected)
    (hbehind : 32768 ≤ ahead expected frame.voiceId) (hstarted : buffer.started = false)
    (hstart : frame.talkStart = true) (hback : ahead frame.voiceId expected ≤ 64) :
    PushStep buffer frame
      ({ buffer with expectedVoiceId := some frame.voiceId }.store frame.voiceId frame)
  | restart (hend : frame.talkEnd = false) (hrestarts : Restarts buffer frame) :
    PushStep buffer frame ((buffer.reset.start frame.voiceId).store frame.voiceId frame)
  | stored (expected : UInt16) (hend : frame.talkEnd = false)
    (hexpected : buffer.expectedVoiceId = some expected)
    (hahead : ahead expected frame.voiceId ≤ 64) :
    PushStep buffer frame (buffer.store expected frame)

theorem push_spec (frame : IncomingEncodedFrame) (buffer : VoiceJitterBuffer) :
    PushStep buffer frame (push frame buffer) := by
  unfold push
  cases hend : frame.talkEnd with
  | true =>
    rw [if_pos rfl]
    cases hexpected : buffer.expectedVoiceId with
    | none =>
      have hself : distance frame.voiceId frame.voiceId < 0x8000 := by
        rw [distance_lt_iff, ahead_self]
        norm_num
      simp only [Option.getD_none, Option.isNone_none, if_true, if_pos hself]
      exact .firstMarker hend hexpected
    | some expected =>
      simp only [Option.getD_some, Option.isNone_some, Bool.false_eq_true, if_false]
      split_ifs with hahead
      · exact .marker expected hend hexpected (distance_lt_iff.1 hahead)
      · exact .lateMarker hend
  | false =>
    rw [if_neg Bool.false_ne_true]
    cases hexpected : buffer.expectedVoiceId with
    | none => exact .first hend hexpected
    | some expected =>
      dsimp only
      split_ifs with hbehind hstart hfar
      · simp only [Bool.and_eq_true, Bool.not_eq_true', decide_eq_true_eq] at hstart
        exact .lateStart expected hend hexpected (le_distance_iff.1 hbehind) hstart.1.1 hstart.1.2
          (distance_le_iff.1 hstart.2)
      · refine .late hend ⟨expected, hexpected, le_distance_iff.1 hbehind, fun h => hstart ?_⟩
        simp [h.1, h.2.1, distance_le_iff.2 h.2.2]
      · refine .restart hend ⟨hend, expected, hexpected, lt_distance_iff.1 hfar, ?_⟩
        exact distance_lt_iff.1 (not_le.1 hbehind)
      · exact .stored expected hend hexpected (distance_le_iff.1 (not_lt.1 hfar))

/-- The buffer with its expected id one further. -/
def advanced (expected : UInt16) (buffer : VoiceJitterBuffer) : VoiceJitterBuffer :=
  { buffer with expectedVoiceId := some (expected + 1), started := true, firstOutput := false }

/-- What `Pull` can do. -/
inductive PullStep (buffer : VoiceJitterBuffer) : JitterPullResult → VoiceJitterBuffer → Prop
  | idle (hnone : buffer.expectedVoiceId = none) : PullStep buffer {} buffer
  | prebuffering (hprebuffering : Prebuffering buffer) : PullStep buffer {} buffer
  | waiting (expected : UInt16) (hexpected : buffer.expectedVoiceId = some expected)
    (hready : buffer.pending.find? expected = none) (hfuture : buffer.hasFutureData = false) :
    PullStep buffer {} { buffer with started := true }
  | frame (expected : UInt16) (ready : IncomingEncodedFrame)
    (hexpected : buffer.expectedVoiceId = some expected)
    (hready : buffer.pending.find? expected = some ready) :
    PullStep buffer { kind := .frame, frame := ready, streamStart := buffer.firstOutput }
      (advanced expected
        { buffer with pending := buffer.pending.erase expected, consecutiveLosses := 0 })
  | packetLoss (expected : UInt16) (hexpected : buffer.expectedVoiceId = some expected)
    (hready : buffer.pending.find? expected = none) (hfuture : buffer.hasFutureData = true)
    (hlosses : buffer.consecutiveLosses < maxConsecutiveLosses) :
    PullStep buffer
      { kind := .packetLoss
        frame := (buffer.pending.find? (expected + 1)).getD {}
        hasRecoveryFrame := (buffer.pending.find? (expected + 1)).isSome }
      (advanced expected { buffer with consecutiveLosses := buffer.consecutiveLosses + 1 })
  | ended (hends : Ends buffer) : PullStep buffer { kind := .ended } buffer.reset

theorem pull_spec (buffer : VoiceJitterBuffer) :
    PullStep buffer (pull buffer).1 (pull buffer).2 := by
  unfold pull
  cases hexpected : buffer.expectedVoiceId with
  | none => exact .idle hexpected
  | some expected =>
    dsimp only
    by_cases hearly : buffer.started = false ∧ buffer.endVoiceId = some expected
    · rw [if_pos (by simpa using hearly)]
      exact .ended ⟨expected, hexpected, .inl hearly.2⟩
    rw [if_neg (by simpa using hearly)]
    by_cases hprebuffering : Prebuffering buffer
    · have hwait : (!buffer.started && decide (buffer.pending.size < prebufferFrames) &&
          buffer.endVoiceId.isNone) = true := by
        simp [hprebuffering.1, hprebuffering.2.1, hprebuffering.2.2]
      rw [if_pos hwait]
      exact .prebuffering hprebuffering
    have hflows : ¬ (!buffer.started && decide (buffer.pending.size < prebufferFrames) &&
        buffer.endVoiceId.isNone) = true := fun hwait => hprebuffering (by
      simp only [Bool.and_eq_true, Bool.not_eq_true', decide_eq_true_eq,
        Option.isNone_iff_eq_none] at hwait
      exact ⟨hwait.1.1, hwait.1.2, hwait.2⟩)
    rw [if_neg hflows]
    by_cases hends : buffer.endVoiceId = some expected
    · rw [if_pos hends]
      exact .ended ⟨expected, hexpected, .inl hends⟩
    rw [if_neg hends]
    cases hready : buffer.pending.find? expected with
    | some ready =>
      have hstep := PullStep.frame expected ready hexpected hready
      simpa [advance, advanced, hexpected] using hstep
    | none =>
      have hsame : ({ buffer with
          expectedVoiceId := some expected
          started := true } : VoiceJitterBuffer).hasFutureData = buffer.hasFutureData := by
        unfold hasFutureData
        rw [hexpected]
      cases hfuture : buffer.hasFutureData with
      | false =>
        have hstep := PullStep.waiting expected hexpected hready hfuture
        rw [hfuture] at hsame
        simpa [hexpected, hready, hsame] using hstep
      | true =>
        rw [hfuture] at hsame
        by_cases hlosses : buffer.consecutiveLosses < maxConsecutiveLosses
        · have hstep := PullStep.packetLoss expected hexpected hready hfuture hlosses
          simpa [advance, advanced, hexpected, hsame, hlosses] using hstep
        · have hstep := PullStep.ended
            ⟨expected, hexpected, .inr ⟨hprebuffering, hready, hfuture, not_lt.1 hlosses⟩⟩
          simpa [hexpected, hsame, hlosses] using hstep

/-- There is future data when the marker or a pending frame is still to come. -/
theorem hasFutureData_iff {buffer : VoiceJitterBuffer} {expected : UInt16}
    (hexpected : buffer.expectedVoiceId = some expected) :
    buffer.hasFutureData = true ↔ (∃ marker, buffer.endVoiceId = some marker ∧
      Future expected marker) ∨ ∃ voiceId entry, buffer.pending.find? voiceId = some entry ∧
        Future expected voiceId := by
  have hfuture : ∀ voiceId, (0 < distance expected voiceId ∧ distance expected voiceId < 0x8000) ↔
      Future expected voiceId := fun voiceId =>
    and_congr UInt16.lt_iff_toNat_lt distance_lt_iff
  unfold hasFutureData
  rw [hexpected]
  simp only [hfuture, Bool.or_eq_true, Option.any_eq_true, List.any_eq_true, decide_eq_true_eq]
  refine or_congr Iff.rfl ⟨?_, ?_⟩
  · rintro ⟨entry, hentry, hahead⟩
    exact ⟨entry.voiceId, entry, Registry.mem_values_iff.1 hentry, hahead⟩
  · rintro ⟨voiceId, entry, hentry, hahead⟩
    obtain rfl : entry.voiceId = voiceId := Registry.key_of_find? hentry
    exact ⟨entry, Registry.mem_values_iff.2 hentry, hahead⟩

/-! ## The pending frames -/

section Pending

variable {expected : UInt16} {frame : IncomingEncodedFrame}
  {pending : Registry IncomingEncodedFrame.voiceId}

theorem find?_tryEmplace (frame : IncomingEncodedFrame)
    (pending : Registry IncomingEncodedFrame.voiceId) (voiceId : UInt16) :
    (tryEmplace frame pending).find? voiceId =
      if voiceId = frame.voiceId then some ((pending.find? voiceId).getD frame)
      else pending.find? voiceId := by
  unfold tryEmplace
  cases hold : pending.find? frame.voiceId with
  | none =>
    have hnot : ¬ pending.contains frame.voiceId = true := fun h => by
      obtain ⟨entry, hentry⟩ := Registry.contains_iff.1 h
      rw [hold] at hentry
      cases hentry
    rw [if_neg hnot, Registry.find?_upsert]
    split_ifs with heq
    · rw [heq, hold, Option.getD_none]
    · rfl
  | some entry =>
    rw [if_pos (Registry.contains_iff.2 ⟨entry, hold⟩)]
    split_ifs with heq
    · rw [heq, hold, Option.getD_some]
    · rfl

theorem contains_tryEmplace {voiceId : UInt16} : (tryEmplace frame pending).contains voiceId = true ↔
    voiceId = frame.voiceId ∨ pending.contains voiceId = true := by
  rw [Registry.contains_iff, Registry.contains_iff, find?_tryEmplace]
  by_cases h : voiceId = frame.voiceId <;> simp [h]

theorem size_tryEmplace_le (frame : IncomingEncodedFrame)
    (pending : Registry IncomingEncodedFrame.voiceId) :
    (tryEmplace frame pending).size ≤ pending.size + 1 := by
  unfold tryEmplace
  split_ifs with h
  · exact Nat.le_succ _
  · refine (Registry.size_upsert_of_find?_none ?_).le
    exact Option.eq_none_iff_forall_ne_some.2 fun entry hentry =>
      h (Registry.contains_iff.2 ⟨entry, hentry⟩)

/-- The search ends with the first id or a frame, and nothing it saw is further ahead. -/
theorem furthest_spec (first : UInt16) (entries : List IncomingEncodedFrame)
    (hahead : ∀ entry ∈ entries, ahead expected entry.voiceId < 32768) :
    (furthest expected first entries = (first, 0) ∨ ∃ entry ∈ entries,
      furthest expected first entries = (entry.voiceId, distance expected entry.voiceId)) ∧
    ∀ entry ∈ entries,
      ahead expected entry.voiceId ≤ (furthest expected first entries).2.toNat := by
  induction entries using List.reverseRecOn with
  | nil => exact ⟨.inl rfl, by simp⟩
  | append_singleton entries last ih =>
    obtain ⟨hfound, hmax⟩ := ih fun entry hentry => hahead entry (List.mem_append_left _ hentry)
    have hlast : distance expected last.voiceId < 0x8000 :=
      distance_lt_iff.2 (hahead last (by simp))
    have hnext : furthest expected first (entries ++ [last]) =
        if (furthest expected first entries).2 ≤ distance expected last.voiceId then
          (last.voiceId, distance expected last.voiceId)
        else furthest expected first entries := by
      unfold furthest
      rw [List.foldl_append, List.foldl_cons, List.foldl_nil]
      simp only [hlast, true_and]
    rw [hnext]
    split_ifs with hle
    · refine ⟨.inr ⟨last, by simp, rfl⟩, fun entry hentry => ?_⟩
      rcases List.mem_append.1 hentry with hentry | hentry
      · exact (hmax entry hentry).trans (UInt16.le_iff_toNat_le.1 hle)
      · rw [List.mem_singleton.1 hentry]
        exact le_rfl
    · refine ⟨hfound.imp_right fun ⟨entry, hentry, h⟩ => ⟨entry, List.mem_append_left _ hentry, h⟩,
        fun entry hentry => ?_⟩
      rcases List.mem_append.1 hentry with hentry | hentry
      · exact hmax entry hentry
      · rw [List.mem_singleton.1 hentry]
        exact (UInt16.lt_iff_toNat_lt.1 (not_le.1 hle)).le

/-- A round of the loop drops a frame that none is ahead of. -/
theorem evict_spec (hsize : pending.size ≠ 0)
    (hahead : ∀ voiceId, pending.contains voiceId = true → ahead expected voiceId < 32768) :
    ∃ last, pending.contains last = true ∧ evict expected pending = pending.erase last ∧
      ∀ voiceId, pending.contains voiceId = true → ahead expected voiceId ≤ ahead expected last := by
  have hcontains : ∀ entry ∈ pending.values, pending.contains entry.voiceId = true :=
    fun entry hentry => Registry.contains_iff.2 ⟨entry, Registry.mem_values_iff.1 hentry⟩
  have hvalues : ∀ voiceId, pending.contains voiceId = true →
      ∃ entry ∈ pending.values, entry.voiceId = voiceId := fun voiceId h => by
    obtain ⟨entry, hentry⟩ := Registry.contains_iff.1 h
    obtain rfl : entry.voiceId = voiceId := Registry.key_of_find? hentry
    exact ⟨entry, Registry.mem_values_iff.2 hentry, rfl⟩
  unfold evict
  cases hlist : pending.values with
  | nil =>
    rw [← Registry.length_values, hlist] at hsize
    exact absurd rfl hsize
  | cons first rest =>
    rw [hlist] at hcontains hvalues
    obtain ⟨hfound, hmax⟩ := furthest_spec first.voiceId (first :: rest) fun entry hentry =>
      hahead _ (hcontains entry hentry)
    refine ⟨_, ?_, rfl, fun voiceId h => ?_⟩
    · rcases hfound with hfound | ⟨entry, hentry, hfound⟩
      · rw [hfound]
        exact hcontains first List.mem_cons_self
      · rw [hfound]
        exact hcontains entry hentry
    · obtain ⟨entry, hentry, rfl⟩ := hvalues voiceId h
      refine (hmax entry hentry).trans ?_
      rcases hfound with hfound | ⟨entry', -, hfound⟩
      · rw [hfound]
        exact Nat.zero_le _
      · rw [hfound]
        exact le_rfl

theorem size_erase_of_contains {voiceId : UInt16} (h : pending.contains voiceId = true) :
    (pending.erase voiceId).size + 1 = pending.size := by
  obtain ⟨entry, hentry⟩ := Registry.contains_iff.1 h
  exact OrderedMap.size_erase_of_find? hentry

/-- **The end of `Push`** puts the frame in, and drops the frame furthest ahead when it is one too
many. -/
theorem store_spec {buffer : VoiceJitterBuffer} (hsize : buffer.pending.size ≤ maxPendingFrames)
    (hahead : ∀ voiceId, (tryEmplace frame buffer.pending).contains voiceId = true →
      ahead expected voiceId < 32768) :
    (buffer.store expected frame).pending.size ≤ maxPendingFrames ∧
      ((buffer.store expected frame).pending = tryEmplace frame buffer.pending ∨
        maxPendingFrames ≤ buffer.pending.size ∧
        ∃ last, (tryEmplace frame buffer.pending).contains last = true ∧
          (buffer.store expected frame).pending = (tryEmplace frame buffer.pending).erase last ∧
          ∀ voiceId, (tryEmplace frame buffer.pending).contains voiceId = true →
            ahead expected voiceId ≤ ahead expected last) := by
  have hstored : (buffer.store expected frame).pending =
      evictAll expected (tryEmplace frame buffer.pending).size (tryEmplace frame buffer.pending) := rfl
  have hle := size_tryEmplace_le frame buffer.pending
  rw [hstored]
  generalize tryEmplace frame buffer.pending = pending at hahead hle ⊢
  cases hrounds : pending.size with
  | zero =>
    refine ⟨?_, .inl rfl⟩
    show pending.size ≤ _
    rw [hrounds]
    exact Nat.zero_le _
  | succ rounds =>
    rw [evictAll]
    split_ifs with hmany
    · obtain ⟨last, hlast, hevict, hmax⟩ := evict_spec (by omega) hahead
      have herased := size_erase_of_contains hlast
      have hdone : evictAll expected rounds (evict expected pending) = pending.erase last := by
        rw [hevict]
        cases rounds with
        | zero => rfl
        | succ rounds =>
          rw [evictAll, if_neg]
          omega
      rw [hdone]
      exact ⟨by omega, .inr ⟨by omega, last, hlast, rfl, hmax⟩⟩
    · exact ⟨not_lt.1 hmany, .inl rfl⟩

end Pending

end VoiceJitterBuffer

end TsCli
