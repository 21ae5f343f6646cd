import TsCli.Audio.JitterOrder
import TsCli.Audio.CaptureFraming
import TsCli.Lib.Yields

/-!
# Decoding one talker

`MixPlayback` needs a frame of samples from each talker. It pulls packets and losses from the
jitter buffer and decodes them until there are enough samples, until the buffer has nothing to give,
or until a packet cannot be decoded. A packet has at most 120 ms, so what is left for the next frame
stays bounded, and so does the number of packets one frame can take (`decodeLoop_eq`).
-/

namespace TsCli

/-- `MaxDecodedSamples`. -/
def maxDecodedSamples : ℕ := 5760

/-- `DecodeMode`. -/
inductive DecodeMode
  | normal
  | packetLoss
  | forwardErrorCorrection
  deriving DecidableEq, Repr

/-- The calls of the Opus library that a decoder makes, on a state `D`. A negative result is an
error code. -/
structure Opus (D α : Type) where
  /-- `opus_decoder_create`. -/
  create : Except ℤ D
  /-- `opus_decode_float`: the packet or a null pointer, the room for samples, and `decode_fec`. -/
  decodeFloat : Option Bytes → ℕ → Bool → D → Except ℤ (List α) × D
  /-- `OPUS_RESET_STATE`. -/
  resetState : D → Except ℤ D
  /-- `opus_strerror`. -/
  strerror : ℤ → String

/-- The documentation of the library: no more samples than there is room for, and a reset is no
error. -/
structure Opus.Documented {D α : Type} (opus : Opus D α) : Prop where
  length_le : ∀ data capacity fec d samples,
    (opus.decodeFloat data capacity fec d).1 = .ok samples → samples.length ≤ capacity
  reset_ok : ∀ d, ∃ d', opus.resetState d = .ok d'

namespace OpusDecoder

variable {D α : Type} (opus : Opus D α)

/-- `CheckOpus`. -/
def checkOpus {β : Type} (operation : String) : Except ℤ β → Except Failure β
  | .ok value => .ok value
  | .error code => .error (.runtimeError (operation ++ ": " ++ opus.strerror code))

/-- `CreateDecoder`. -/
def create : Except Failure D := checkOpus opus "Failed to create Opus decoder" opus.create

/-- `OpusDecoder::Reset`. -/
def reset (d : D) : Except Failure D :=
  checkOpus opus "Failed to reset Opus decoder" (opus.resetState d)

/-- `OpusDecoder::Decode`. -/
def decode (input : Bytes) (mode : DecodeMode) (recoverySamples : ℕ) (d : D) :
    Except Failure (List α) × D :=
  if mode ≠ .normal ∧ (recoverySamples = 0 ∨ maxDecodedSamples < recoverySamples) then
    (.error (.runtimeError "Invalid Opus recovery duration"), d)
  else if mode = .forwardErrorCorrection ∧ input = [] then
    (.error (.runtimeError "Opus FEC requires the following packet"), d)
  else
    match opus.decodeFloat (if mode = .packetLoss ∨ input = [] then none else some input)
      (if mode ≠ .normal then recoverySamples else maxDecodedSamples)
      (mode = .forwardErrorCorrection) d with
    | (.error code, d) =>
      (.error (.runtimeError ("Failed to decode Opus audio: " ++ opus.strerror code)), d)
    | (.ok samples, d) =>
      if samples = [] then (.ok [], d)
      else if mode ≠ .normal ∧ samples.length ≠ recoverySamples then
        (.error (.runtimeError "Opus recovery returned an unexpected duration"), d)
      else (.ok samples, d)

variable {opus}

theorem exists_reset (h : opus.Documented) (d : D) : ∃ d', reset opus d = .ok d' := by
  obtain ⟨d', hreset⟩ := h.reset_ok d
  exact ⟨d', by rw [reset, hreset]; rfl⟩

/-- What `Decode` returns fits into the array. -/
theorem length_decode_le (h : opus.Documented) {input : Bytes} {mode : DecodeMode}
    {recoverySamples : ℕ} {d : D} {samples : List α}
    (hdecode : (decode opus input mode recoverySamples d).1 = .ok samples) :
    samples.length ≤ maxDecodedSamples := by
  unfold decode at hdecode
  by_cases hduration :
      mode ≠ .normal ∧ (recoverySamples = 0 ∨ maxDecodedSamples < recoverySamples)
  · rw [if_pos hduration] at hdecode
    cases hdecode
  by_cases hmissing : mode = .forwardErrorCorrection ∧ input = []
  · rw [if_neg hduration, if_pos hmissing] at hdecode
    cases hdecode
  rw [if_neg hduration, if_neg hmissing] at hdecode
  have hle : (if mode ≠ .normal then recoverySamples else maxDecodedSamples) ≤
      maxDecodedSamples := by
    split_ifs with hmode
    · by_contra hlt
      exact hduration ⟨hmode, .inr (not_le.1 hlt)⟩
    · exact le_rfl
  revert hdecode hle
  generalize (if mode ≠ .normal then recoverySamples else maxDecodedSamples) = capacity
  intro hdecode hle
  split at hdecode
  · cases hdecode
  · next decoded d' hcall =>
    have hroom : decoded.length ≤ capacity := h.length_le _ _ _ d decoded (by rw [hcall])
    split_ifs at hdecode with hnone hunexpected
    · cases hdecode
      exact Nat.zero_le _
    · cases hdecode
      exact hroom.trans hle

end OpusDecoder

/-- `AudioEngine::TalkerState`. -/
structure TalkerState (D α : Type) where
  decoder : Option D := none
  jitter : VoiceJitterBuffer := {}
  decodedSamples : List α := []
  lastPacketSamples : ℕ := samplesPerFrame

namespace TalkerState

variable {D α : Type}

/-- How a pass of the loop ends: the loop goes on, or it is left, with a packet that could not be
decoded or without one. -/
inductive Pass (D α : Type)
  | again (talker : TalkerState D α)
  | leave (talker : TalkerState D α) (dropped : Bool)

def Pass.talker : Pass D α → TalkerState D α
  | .again talker => talker
  | .leave talker _ => talker

variable (opus : Opus D α)

/-- `decodedSamples.resize( SamplesPerFrame, 0.0F )` of fewer samples. -/
def fillUp [Zero α] (samples : List α) : List α :=
  samples ++ List.replicate (samplesPerFrame - samples.length) 0

/-- The branch of `JitterPullKind::End`. -/
def endStream [Zero α] (d : D) (talker : TalkerState D α) : Except Failure (Pass D α) := do
  let d ← OpusDecoder.reset opus d
  .ok (.leave { talker with
    decoder := some d
    lastPacketSamples := samplesPerFrame
    decodedSamples :=
      if talker.decodedSamples = [] then [] else fillUp talker.decodedSamples } false)

/-- The branch of `item.streamStart`. -/
def startStream (item : JitterPullResult) (d : D) (talker : TalkerState D α) :
    Except Failure (D × TalkerState D α) :=
  if item.streamStart then do
    let d ← OpusDecoder.reset opus d
    .ok (d, { talker with decodedSamples := [], lastPacketSamples := samplesPerFrame })
  else .ok (d, talker)

/-- The `decodeMode` of an item. -/
def decodeMode (item : JitterPullResult) : DecodeMode :=
  if item.kind = .packetLoss then
    if item.hasRecoveryFrame then .forwardErrorCorrection else .packetLoss
  else .normal

/-- The talker with a decoded packet. -/
def keep (mode : DecodeMode) (samples : List α) (d : D) (talker : TalkerState D α) :
    TalkerState D α :=
  { talker with
    decoder := some d
    lastPacketSamples := if mode = .normal then samples.length else talker.lastPacketSamples
    decodedSamples := talker.decodedSamples ++ samples }

/-- The call of `Decode` and what follows it. -/
def decodeItem (item : JitterPullResult) (d : D) (talker : TalkerState D α) :
    Except Failure (Pass D α) :=
  let mode := decodeMode item
  let recoverySamples := if item.kind = .packetLoss then talker.lastPacketSamples else 0
  let encoded := if mode = .packetLoss then [] else item.frame.data
  match OpusDecoder.decode opus encoded mode recoverySamples d with
  | (.error _, d) => do
    let d ← OpusDecoder.reset opus d
    .ok (.leave { decoder := some d, jitter := talker.jitter.reset } true)
  | (.ok samples, d) =>
    if samples = [] then .ok (.again { talker with decoder := some d })
    else do
      throwIf (maxDecodedSamples < samples.length) "Audio decoder returned too many samples"
      .ok (.again (talker.keep mode samples d))

/-- One pass of the loop. -/
def decodePass [Zero α] (d : D) (talker : TalkerState D α) : Except Failure (Pass D α) :=
  let (item, jitter) := talker.jitter.pull
  let talker := { talker with jitter }
  match item.kind with
  | .wait => .ok (.leave talker false)
  | .ended => endStream opus d talker
  | .frame | .packetLoss => do
    let started ← startStream opus item d talker
    decodeItem opus item started.1 started.2

/-- The loop of `MixPlayback` over one talker, and whether it dropped a packet. -/
def decodeLoop [Zero α] : ℕ → TalkerState D α → Except Failure (TalkerState D α × Bool)
  | 0, _ => .error .outOfFuel
  | fuel + 1, talker =>
    match talker.decoder with
    | none => .ok (talker, false)
    | some d =>
      if samplesPerFrame ≤ talker.decodedSamples.length then .ok (talker, false)
      else do
        match ← decodePass opus d talker with
        | .again talker => decodeLoop fuel talker
        | .leave talker dropped => .ok (talker, dropped)

/-- The loop with enough passes. -/
def decodeFrame [Zero α] (talker : TalkerState D α) :
    Except Failure (TalkerState D α × Bool) :=
  decodeLoop opus (talker.jitter.work + 1) talker

/-- The copy of `SamplesPerFrame` samples, when there are so many. -/
def popFrame (talker : TalkerState D α) : Option (FrameSamples α) × TalkerState D α :=
  if h : samplesPerFrame ≤ talker.decodedSamples.length then
    (some ⟨(talker.decodedSamples.take samplesPerFrame).toArray, by simpa using h⟩,
      { talker with decodedSamples := talker.decodedSamples.drop samplesPerFrame })
  else (none, talker)

/-! ## One frame -/

/-- What every pass keeps. -/
structure Sound (talker : TalkerState D α) : Prop where
  decoder : talker.decoder.isSome
  jitter : VoiceJitterBuffer.WellFormed talker.jitter
  packet_pos : 0 < talker.lastPacketSamples
  packet_le : talker.lastPacketSamples ≤ maxDecodedSamples

/-- What holds between two frames. -/
structure Rested (talker : TalkerState D α) : Prop extends Sound talker where
  left_lt : talker.decodedSamples.length < maxDecodedSamples

theorem samplesPerFrame_pos : 0 < samplesPerFrame := Nat.succ_pos _

theorem samplesPerFrame_le : samplesPerFrame ≤ maxDecodedSamples := by
  unfold samplesPerFrame maxDecodedSamples
  omega

/-- A talker that comes up. -/
theorem rested_new (d : D) : Rested ({ decoder := some d } : TalkerState D α) where
  decoder := rfl
  jitter := VoiceJitterBuffer.wellFormed_new
  packet_pos := samplesPerFrame_pos
  packet_le := samplesPerFrame_le
  left_lt := samplesPerFrame_pos.trans_le samplesPerFrame_le

theorem Rested.push {talker : TalkerState D α} (h : Rested talker)
    (frame : IncomingEncodedFrame) :
    Rested { talker with jitter := VoiceJitterBuffer.push frame talker.jitter } where
  decoder := h.decoder
  jitter := h.jitter.push frame
  packet_pos := h.packet_pos
  packet_le := h.packet_le
  left_lt := h.left_lt

/-- What a pass leaves behind. -/
structure Passed (work : ℕ) (pass : Pass D α) : Prop where
  sound : Sound pass.talker
  length_lt : pass.talker.decodedSamples.length < samplesPerFrame + maxDecodedSamples
  progress : ∀ talker, pass = .again talker → talker.jitter.work < work

variable {opus} {talker : TalkerState D α}

theorem yields_reset (h : opus.Documented) (d : D) :
    Yields (OpusDecoder.reset opus d) fun _ => True := by
  obtain ⟨d', hreset⟩ := OpusDecoder.exists_reset h d
  exact .of_eq_ok hreset trivial

/-- A pass that leaves the loop. -/
theorem Passed.leave {dropped : Bool} (hsound : Sound talker)
    (hlength : talker.decodedSamples.length < samplesPerFrame + maxDecodedSamples) (work : ℕ) :
    Passed work (.leave talker dropped) where
  sound := hsound
  length_lt := hlength
  progress := by
    intro talker' hagain
    cases hagain

theorem Passed.again (hsound : Sound talker)
    (hlength : talker.decodedSamples.length < samplesPerFrame + maxDecodedSamples) {work : ℕ}
    (hwork : talker.jitter.work < work) : Passed work (.again talker) where
  sound := hsound
  length_lt := hlength
  progress := by
    intro talker' hagain
    cases hagain
    exact hwork

theorem Sound.keep (hsound : Sound talker) {samples : List α} (hsome : samples ≠ [])
    (hroom : samples.length ≤ maxDecodedSamples) (mode : DecodeMode) (d : D) :
    Sound (talker.keep mode samples d) where
  decoder := rfl
  jitter := hsound.jitter
  packet_pos := by
    dsimp only [TalkerState.keep]
    split_ifs
    · exact List.length_pos_of_ne_nil hsome
    · exact hsound.packet_pos
  packet_le := by
    dsimp only [TalkerState.keep]
    split_ifs
    · exact hroom
    · exact hsound.packet_le

/-- The decoder fails on the packet or not. -/
theorem passed_decodeItem (h : opus.Documented) (item : JitterPullResult) (d : D)
    (hsound : Sound talker) (hfew : talker.decodedSamples.length < samplesPerFrame) {work : ℕ}
    (hwork : talker.jitter.work < work) :
    Yields (decodeItem opus item d talker) (Passed work) := by
  unfold decodeItem
  dsimp only
  generalize hdecode : OpusDecoder.decode opus _ (decodeMode item) _ d = result
  obtain ⟨failure | samples, d'⟩ := result
  · refine .bind (yields_reset h d') ?_
    intro d'' _
    exact .ok (.leave (rested_new d'').toSound (Nat.add_pos_left samplesPerFrame_pos _) work)
  have hroom : samples.length ≤ maxDecodedSamples :=
    OpusDecoder.length_decode_le h (by rw [hdecode])
  refine .ite ?_ ?_
  · intro hnone
    have hsound' : Sound { talker with decoder := some d' } :=
      ⟨rfl, hsound.jitter, hsound.packet_pos, hsound.packet_le⟩
    exact .ok (.again hsound' (hfew.trans_le (Nat.le_add_right _ _)) hwork)
  · intro hsome
    rw [throwIf_bind_of_not (not_lt.2 hroom)]
    refine .ok (.again (hsound.keep hsome hroom _ d') ?_ hwork)
    show (talker.decodedSamples ++ samples).length < _
    rw [List.length_append]
    exact Nat.add_lt_add_of_lt_of_le hfew hroom

theorem yields_startStream (h : opus.Documented) (item : JitterPullResult) (d : D)
    (hsound : Sound talker) (hfew : talker.decodedSamples.length < samplesPerFrame) :
    Yields (startStream opus item d talker) fun started =>
      Sound started.2 ∧ started.2.decodedSamples.length < samplesPerFrame ∧
        started.2.jitter = talker.jitter := by
  refine .ite ?_ ?_
  · intro _
    refine .bind (yields_reset h d) ?_
    intro d' _
    exact .ok ⟨⟨hsound.decoder, hsound.jitter, samplesPerFrame_pos, samplesPerFrame_le⟩,
      samplesPerFrame_pos, rfl⟩
  · intro _
    exact .ok ⟨hsound, hfew, rfl⟩

variable [Zero α]

theorem length_fillUp {samples : List α} (hfew : samples.length < samplesPerFrame) :
    (fillUp samples).length = samplesPerFrame := by
  rw [fillUp, List.length_append, List.length_replicate]
  omega

theorem passed_endStream (h : opus.Documented) (d : D) (hsound : Sound talker)
    (hfew : talker.decodedSamples.length < samplesPerFrame) (work : ℕ) :
    Yields (endStream opus d talker) (Passed work) := by
  refine .bind (yields_reset h d) ?_
  intro d' _
  have hsound' : Sound { talker with
      decoder := some d'
      lastPacketSamples := samplesPerFrame
      decodedSamples :=
        if talker.decodedSamples = [] then [] else fillUp talker.decodedSamples } :=
    ⟨rfl, hsound.jitter, samplesPerFrame_pos, samplesPerFrame_le⟩
  refine .ok (.leave hsound' ?_ work)
  have hpos := samplesPerFrame_pos.trans_le samplesPerFrame_le
  dsimp only
  split_ifs with hnone
  · exact Nat.add_pos_left samplesPerFrame_pos _
  · rw [length_fillUp hfew]
    exact Nat.lt_add_of_pos_right hpos

/-- **One pass.** It never fails, and goes on only when the jitter buffer has given something. -/
theorem passed_decodePass (h : opus.Documented) (d : D) (hsound : Sound talker)
    (hfew : talker.decodedSamples.length < samplesPerFrame) :
    Yields (decodePass opus d talker) (Passed talker.jitter.work) := by
  have hpulled : Sound { talker with jitter := talker.jitter.pull.2 } :=
    ⟨hsound.decoder, hsound.jitter.pull, hsound.packet_pos, hsound.packet_le⟩
  unfold decodePass
  rcases VoiceJitterBuffer.pull_work talker.jitter with (hwait | hended) | ⟨hkind, hwork⟩
  · dsimp only
    rw [hwait]
    exact .ok (.leave hpulled (hfew.trans_le (Nat.le_add_right _ _)) _)
  · dsimp only
    rw [hended]
    exact passed_endStream h d hpulled hfew _
  · have hdecoded : Yields (do
        let started ←
          startStream opus talker.jitter.pull.1 d { talker with jitter := talker.jitter.pull.2 }
        decodeItem opus talker.jitter.pull.1 started.1 started.2) (Passed talker.jitter.work) := by
      refine (yields_startStream h talker.jitter.pull.1 d hpulled hfew).bind ?_
      rintro ⟨d', talker'⟩ ⟨hsound', hfew', hjitter⟩
      refine passed_decodeItem h _ d' hsound' hfew' ?_
      rw [hjitter]
      exact hwork
    dsimp only
    rcases hkind with hframe | hloss
    · rw [hframe]
      exact hdecoded
    · rw [hloss]
      exact hdecoded

/-- A loop with more passes than the jitter buffer has work. -/
theorem yields_decodeLoop (h : opus.Documented) {fuel : ℕ} (hfuel : talker.jitter.work < fuel)
    (hsound : Sound talker)
    (hlength : talker.decodedSamples.length < samplesPerFrame + maxDecodedSamples) :
    Yields (decodeLoop opus fuel talker) fun decoded =>
      Sound decoded.1 ∧
        decoded.1.decodedSamples.length < samplesPerFrame + maxDecodedSamples := by
  induction fuel generalizing talker with
  | zero => exact absurd hfuel (Nat.not_lt_zero _)
  | succ fuel ih =>
    obtain ⟨d, hd⟩ := Option.isSome_iff_exists.1 hsound.decoder
    unfold decodeLoop
    rw [hd]
    refine .ite ?_ ?_
    · intro _
      exact .ok ⟨hsound, hlength⟩
    · intro hfew
      refine (passed_decodePass h d hsound (not_le.1 hfew)).bind ?_
      rintro (talker' | ⟨talker', dropped⟩) hpassed
      · exact ih ((hpassed.progress talker' rfl).trans_le (Nat.lt_succ_iff.1 hfuel)) hpassed.sound
          hpassed.length_lt
      · exact .ok ⟨hpassed.sound, hpassed.length_lt⟩

/-- More passes change nothing about a loop that ends. -/
theorem decodeLoop_succ {fuel : ℕ} {decoded : TalkerState D α × Bool}
    (hloop : decodeLoop opus fuel talker = .ok decoded) :
    decodeLoop opus (fuel + 1) talker = .ok decoded := by
  induction fuel generalizing talker with
  | zero => cases hloop
  | succ fuel ih =>
    unfold decodeLoop at hloop ⊢
    cases hd : talker.decoder with
    | none =>
      rw [hd] at hloop
      exact hloop
    | some d =>
      rw [hd] at hloop
      dsimp only at hloop ⊢
      split_ifs at hloop ⊢ with hfull
      · exact hloop
      · obtain ⟨pass, hpass, hrest⟩ := bind_eq_ok hloop
        rw [hpass]
        cases pass with
        | again talker' => exact ih hrest
        | leave talker' dropped => exact hrest

/-- Any number of passes that is enough. -/
theorem decodeLoop_eq (h : opus.Documented) (hrested : Rested talker) {fuel : ℕ}
    (hfuel : talker.jitter.work < fuel) :
    decodeLoop opus fuel talker = decodeFrame opus talker := by
  obtain ⟨decoded, hdecoded, -⟩ := yields_decodeLoop h (Nat.lt_succ_self _) hrested.toSound
    (hrested.left_lt.trans_le (Nat.le_add_left _ _))
  obtain ⟨more, rfl⟩ := Nat.exists_eq_add_of_lt hfuel
  rw [decodeFrame, hdecoded]
  clear hfuel
  induction more with
  | zero => exact hdecoded
  | succ more ih => exact decodeLoop_succ ih

/-- **One frame.** Decoding it never fails. -/
theorem yields_decodeFrame (h : opus.Documented) (hrested : Rested talker) :
    Yields (decodeFrame opus talker) fun decoded => Rested (popFrame decoded.1).2 := by
  refine (yields_decodeLoop h (Nat.lt_succ_self _) hrested.toSound
    (hrested.left_lt.trans_le (Nat.le_add_left _ _))).mono ?_
  rintro ⟨talker', dropped⟩ ⟨hsound, hlength⟩
  dsimp only [popFrame] at hlength ⊢
  split_ifs with hfull
  · refine ⟨⟨hsound.decoder, hsound.jitter, hsound.packet_pos, hsound.packet_le⟩, ?_⟩
    rw [List.length_drop]
    omega
  · exact ⟨hsound, (not_le.1 hfull).trans_le samplesPerFrame_le⟩

end TalkerState

end TsCli
