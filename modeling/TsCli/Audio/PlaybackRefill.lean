import TsCli.Audio.Mixing

/-!
# Keeping the playback queue filled

While the output device asks for samples, the worker mixes what the requests have taken: after each
pass the queue has enough frames for a request like the last one, and a frame to spare. A request
that finds a pass behind the one before it is answered without a gap (`no_underruns`). Without
requests the worker mixes by its own clock, and nobody hears the result.
-/

namespace TsCli

namespace Playback

variable {α : Type}

/-- The samples that can be played. -/
def ready (s : Playback α) : ℕ := samplesPerFrame - s.offset + samplesPerFrame * s.queue.size

/-- The clocks and the counter of two states are the same. -/
structure Calm (s s' : Playback α) : Prop where
  lastRequest : s'.lastRequest = s.lastRequest
  requestSamples : s'.requestSamples = s.requestSamples
  underruns : s'.underruns = s.underruns

theorem Calm.refl (s : Playback α) : Calm s s := ⟨rfl, rfl, rfl⟩

theorem Calm.trans {s s' s'' : Playback α} (h : Calm s s') (h' : Calm s' s'') : Calm s s'' :=
  ⟨h'.lastRequest.trans h.lastRequest, h'.requestSamples.trans h.requestSamples,
    h'.underruns.trans h.underruns⟩

theorem calm_push (s : Playback α) (frame : FrameSamples α) : Calm s (s.push frame) :=
  ⟨rfl, rfl, rfl⟩

theorem size_push (s : Playback α) (frame : FrameSamples α) :
    (s.push frame).queue.size =
      if s.queue.size + 1 < playbackQueueCapacity then s.queue.size + 1 else s.queue.size := by
  show (s.queue.tryPush frame).2.size = _
  rw [← SpscRing.length_contents, ← SpscRing.length_contents]
  rcases s.queue.tryPush_cases frame with ⟨hfull, hpush⟩ | ⟨hroom, -, hcontents⟩
  · rw [hpush, if_neg (by omega)]
  · rw [hcontents, if_pos hroom, List.length_append, List.length_singleton]

/-- `TryPop` moves a frame out of the queue. -/
theorem nextFrame_cases (s : Playback α) :
    (s.nextFrame = none ∧ s.queue.size = 0) ∨
      ∃ s', s.nextFrame = some s' ∧ Calm s s' ∧ s'.offset = 0 ∧
        s.queue.size = s'.queue.size + 1 := by
  unfold nextFrame
  rcases s.queue.tryPop_cases with ⟨hempty, hpop⟩ | ⟨frame, hframe, hcontents⟩
  · rw [hpop]
    exact .inl ⟨rfl, by rw [← SpscRing.length_contents, hempty]; rfl⟩
  · have hpop : s.queue.tryPop = (some frame, s.queue.tryPop.2) := Prod.ext hframe rfl
    rw [hpop]
    refine .inr ⟨_, rfl, ⟨rfl, rfl, rfl⟩, rfl, ?_⟩
    rw [← SpscRing.length_contents, hcontents, List.length_cons, SpscRing.length_contents]

theorem length_copied_eq (s : Playback α) (size : ℕ) (written : List α) :
    (written ++ s.copied size written).length =
      written.length + min (size - written.length) (samplesPerFrame - s.offset) := by
  rw [List.length_append, copied, List.length_take, List.length_drop, Vector.length_toList]

/-- **Enough samples.** A request that comes back from idle, or is for no more samples than there
are, counts no underrun. -/
theorem calm_renderLoop (silence : α) {wasActive : Bool} {size fuel i : ℕ} {written : List α}
    {s : Playback α} (hready : wasActive = true → size ≤ written.length + s.ready) :
    Calm s (renderLoop silence wasActive (fun _ => []) size fuel i written s) := by
  induction fuel generalizing i written s with
  | zero => exact .refl s
  | succ fuel ih =>
    -- a pass that copies
    have hpass : ∀ (i : ℕ) (s : Playback α),
        (wasActive = true → size ≤ written.length + s.ready) →
        Calm s (renderLoop silence wasActive (fun _ => []) size fuel i
          (written ++ s.copied size written) (s.advance (size - written.length))) := by
      intro i s hready
      have hadvance : Calm s (s.advance (size - written.length)) := ⟨rfl, rfl, rfl⟩
      refine hadvance.trans (ih ?_)
      intro hactive
      have hoffset := s.offset_le
      have henough := hready hactive
      rw [length_copied_eq]
      unfold ready at henough ⊢
      dsimp only [advance]
      omega
    rw [renderLoop]
    split_ifs with hfull hused
    · exact ⟨rfl, rfl, rfl⟩
    · rcases s.nextFrame_cases with ⟨hnext, hempty⟩ | ⟨s', hnext, hcalm, hoffset, hsize⟩
      · dsimp only [List.foldl_nil]
        rw [hnext]
        refine ⟨rfl, rfl, ?_⟩
        show (if wasActive then s.underruns + 1 else s.underruns) = s.underruns
        refine if_neg ?_
        intro hactive
        have henough := hready hactive
        unfold ready at henough
        rw [hempty] at henough
        omega
      · dsimp only [List.foldl_nil]
        rw [hnext]
        refine hcalm.trans (hpass (i + 1) s' ?_)
        intro hactive
        have henough := hready hactive
        unfold ready at henough ⊢
        rw [hsize, Nat.mul_succ] at henough
        rw [hoffset, Nat.sub_zero]
        omega
    · exact hpass i s hready

/-- **A request** that finds enough samples, or comes back from idle. -/
theorem renderPlayback_calm (silence : α) (now : ℤ) (size : ℕ) {s : Playback α}
    (hready : s.lastRequest ≠ 0 → now - s.lastRequest < playbackIdleTimeout →
      size ≤ samplesPerFrame * s.queue.size) :
    (s.renderPlayback silence now (fun _ => []) size).lastRequest = now ∧
      (s.renderPlayback silence now (fun _ => []) size).requestSamples = size ∧
      (s.renderPlayback silence now (fun _ => []) size).underruns = s.underruns := by
  have hcalm : Calm { s with lastRequest := now, requestSamples := size }
      (s.renderPlayback silence now (fun _ => []) size) := by
    refine calm_renderLoop silence ?_
    intro hactive
    simp only [Bool.and_eq_true, decide_eq_true_eq] at hactive
    exact (hready hactive.1 hactive.2).trans
      ((Nat.le_add_left _ _).trans (Nat.le_add_left _ _))
  exact ⟨hcalm.lastRequest, hcalm.requestSamples, hcalm.underruns⟩

end Playback

namespace AudioEngine

variable {D F : Type} (opus : Opus D F)

/-- `AudioEngine::PlaybackBufferFrames`. -/
def playbackBufferFrames (requestSamples : ℕ) : ℕ :=
  let requestFrames := (requestSamples + samplesPerFrame - 1) / samplesPerFrame
  min (max (requestFrames + 1) 2) (playbackQueueCapacity - 1)

/-- `AudioEngine::PlaybackDeviceActive`. -/
def playbackDeviceActive (now : TimePoint) (s : AudioEngine D F) : Bool :=
  s.playback.lastRequest ≠ 0 ∧ now - s.playback.lastRequest < playbackIdleTimeout

/-- What `ProcessCapture` does to the talkers. -/
inductive CaptureEffect
  | eraseLoopback
  | playLoopback (data : Bytes) (talkStart talkEnd : Bool)
  deriving DecidableEq

/-- What a pass of `Worker` meets: the effects of `ProcessCapture`, the two queues of
`ProcessIncoming`, the clock behind it, and what each mix reads. -/
structure WorkerInputs (F : Type) where
  now : TimePoint
  captured : List CaptureEffect := []
  resets : List UInt16 := []
  frames : List IncomingEncodedFrame := []
  mixes : ℕ → MixInputs F := fun _ => {}

def captureEffect (s : AudioEngine D F) : CaptureEffect → Except Failure (AudioEngine D F)
  | .eraseLoopback => .ok (s.eraseTalker loopbackTalkerId)
  | .playLoopback data talkStart talkEnd => s.playLoopback opus data talkStart talkEnd

variable [AudioFloat F]

/-- `while ( m_PlaybackQueue.Size() < target )`. -/
def refill (mixes : ℕ → MixInputs F) (target : ℕ) :
    ℕ → ℕ → AudioEngine D F → Except Failure (AudioEngine D F)
  | 0, _, _ => .error .outOfFuel
  | fuel + 1, i, s =>
    if s.playback.queue.size < target then do
      let s ← s.mixPlayback opus (mixes i) true
      refill mixes target fuel (i + 1) s
    else .ok s

/-- `while ( now >= nextMix && catchUpFrames < 3 )`, with the frames that are left of the three. -/
def catchUp (mixes : ℕ → MixInputs F) (now : TimePoint) :
    ℕ → AudioEngine D F → Except Failure (AudioEngine D F)
  | 0, s => .ok s
  | left + 1, s =>
    if s.nextMix ≤ now then do
      let s ← s.mixPlayback opus (mixes left) false
      catchUp mixes now left { s with nextMix := s.nextMix + 20 * 1000000 }
    else .ok s

/-- The part of `Worker` behind `ProcessIncoming`. -/
def pace (now : TimePoint) (mixes : ℕ → MixInputs F) (s : AudioEngine D F) :
    Except Failure (AudioEngine D F) :=
  if s.playbackDeviceActive now then do
    let s ← refill opus mixes (playbackBufferFrames s.playback.requestSamples)
      playbackQueueCapacity 0 s
    .ok { s with nextMix := now + 20 * 1000000 }
  else do
    let s ← catchUp opus mixes now 3 s
    .ok (if s.nextMix + 100 * 1000000 ≤ now then { s with nextMix := now + 20 * 1000000 } else s)

/-- A pass of the loop of `Worker`. -/
def workerPass (inputs : WorkerInputs F) (s : AudioEngine D F) :
    Except Failure (AudioEngine D F) := do
  let s ← inputs.captured.foldlM (captureEffect opus) s
  let s ← s.processIncoming opus inputs.resets inputs.frames
  s.pace opus inputs.now inputs.mixes

/-- A pass of the worker, or a request of the device. -/
inductive Turn (F : Type)
  | pass (inputs : WorkerInputs F)
  | request (now : TimePoint) (size : ℕ)

def turn (s : AudioEngine D F) : Turn F → Except Failure (AudioEngine D F)
  | .pass inputs => s.workerPass opus inputs
  | .request now size =>
    .ok { s with playback := s.playback.renderPlayback 0 now (fun _ => []) size }

def turns (steps : List (Turn F)) (s : AudioEngine D F) : Except Failure (AudioEngine D F) :=
  steps.foldlM (turn opus) s

/-! ## A pass of the worker -/

variable {opus} {s : AudioEngine D F} {new : D}

/-- The pass leaves the playback alone, but for frames at the end of the queue. -/
structure Filled (s s' : AudioEngine D F) : Prop where
  rested : s'.Rested
  calm : s.playback.Calm s'.playback
  size_le : s.playback.queue.size ≤ s'.playback.queue.size

omit [AudioFloat F] in
theorem Filled.trans {s' s'' : AudioEngine D F} (h : Filled s s') (h' : Filled s' s'') :
    Filled s s'' :=
  ⟨h'.rested, h.calm.trans h'.calm, h.size_le.trans h'.size_le⟩

omit [AudioFloat F] in
theorem filled_of_playback {s' : AudioEngine D F} (hrested : s'.Rested)
    (hplayback : s'.playback = s.playback) : Filled s s' := by
  refine ⟨hrested, ?_, ?_⟩
  · rw [hplayback]
    exact .refl _
  · rw [hplayback]

theorem yields_mix (h : opus.Documented) (hrested : s.Rested) (inputs : MixInputs F)
    (deliver : Bool) : Yields (s.mixPlayback opus inputs deliver) fun s' => Filled s s' ∧
      (deliver = true → s.playback.queue.size + 1 < playbackQueueCapacity →
        s'.playback.queue.size = s.playback.queue.size + 1) := by
  refine (yields_mixPlayback h hrested inputs deliver).mono ?_
  rintro s' ⟨hrested', -, -, hplayback⟩
  cases deliver with
  | false => exact ⟨filled_of_playback hrested' hplayback, fun hdeliver => absurd hdeliver (by simp)⟩
  | true =>
    rw [if_pos rfl] at hplayback
    have hsize := s.playback.size_push (delivered inputs s opus)
    rw [← hplayback] at hsize
    refine ⟨⟨hrested', ?_, ?_⟩, ?_⟩
    · rw [hplayback]
      exact s.playback.calm_push _
    · rw [hsize]
      split_ifs
      · exact Nat.le_succ _
      · exact le_rfl
    · intro _ hroom
      rw [hsize, if_pos hroom]

/-- The queue is filled up to the target. -/
theorem yields_refill (h : opus.Documented) (hrested : s.Rested) (mixes : ℕ → MixInputs F)
    {target : ℕ} (htarget : target < playbackQueueCapacity) {fuel i : ℕ}
    (hfuel : target < s.playback.queue.size + fuel) (hpos : 0 < fuel) :
    Yields (refill opus mixes target fuel i s) fun s' =>
      Filled s s' ∧ target ≤ s'.playback.queue.size := by
  induction fuel generalizing i s with
  | zero => exact absurd hpos (lt_irrefl _)
  | succ fuel ih =>
    refine .ite ?_ ?_
    · intro hlt
      refine (yields_mix h hrested (mixes i) true).bind ?_
      rintro s' ⟨hfilled, hmore⟩
      have hsize := hmore rfl (by omega)
      refine (ih hfilled.rested (by omega) (by omega)).mono ?_
      rintro s'' ⟨hfilled', hfull⟩
      exact ⟨hfilled.trans hfilled', hfull⟩
    · intro hfull
      exact .ok ⟨filled_of_playback hrested rfl, not_lt.1 hfull⟩

theorem yields_catchUp (h : opus.Documented) (hrested : s.Rested) (mixes : ℕ → MixInputs F)
    (now : TimePoint) (left : ℕ) : Yields (catchUp opus mixes now left s) (Filled s) := by
  induction left generalizing s with
  | zero => exact .ok (filled_of_playback hrested rfl)
  | succ left ih =>
    refine .ite ?_ ?_
    · intro _
      refine (yields_mix h hrested (mixes left) false).bind ?_
      rintro s' ⟨hfilled, -⟩
      refine (ih (s := { s' with nextMix := s'.nextMix + 20 * 1000000 }) hfilled.rested).mono ?_
      intro s'' hfilled'
      exact hfilled.trans ⟨hfilled'.rested, hfilled'.calm, hfilled'.size_le⟩
    · intro _
      exact .ok (filled_of_playback hrested rfl)

theorem playbackBufferFrames_lt (requestSamples : ℕ) :
    playbackBufferFrames requestSamples < playbackQueueCapacity := by
  have hcapacity : playbackQueueCapacity - 1 < playbackQueueCapacity :=
    Nat.sub_lt (Nat.succ_pos _) Nat.one_pos
  exact (min_le_right _ _).trans_lt hcapacity

theorem yields_pace (h : opus.Documented) (hrested : s.Rested) (now : TimePoint)
    (mixes : ℕ → MixInputs F) : Yields (s.pace opus now mixes) fun s' => Filled s s' ∧
      (s.playbackDeviceActive now = true →
        playbackBufferFrames s.playback.requestSamples ≤ s'.playback.queue.size) := by
  refine .ite ?_ ?_
  · intro _
    have htarget := playbackBufferFrames_lt s.playback.requestSamples
    refine (yields_refill h hrested mixes htarget (Nat.lt_add_left _ htarget)
      (Nat.zero_lt_of_lt htarget)).bind ?_
    rintro s' ⟨hfilled, hfull⟩
    exact .ok ⟨⟨hfilled.rested, hfilled.calm, hfilled.size_le⟩, fun _ => hfull⟩
  · intro hidle
    refine (yields_catchUp h hrested mixes now 3).bind ?_
    intro s' hfilled
    refine .ok ⟨?_, fun hactive => absurd hactive hidle⟩
    split_ifs
    · exact ⟨hfilled.rested, hfilled.calm, hfilled.size_le⟩
    · exact hfilled

omit [AudioFloat F] in
theorem yields_captureEffect (hcreate : OpusDecoder.create opus = .ok new) (hrested : s.Rested)
    (effect : CaptureEffect) : Yields (s.captureEffect opus effect) (Filled s) := by
  cases effect with
  | eraseLoopback => exact .ok (filled_of_playback (rested_erase hrested _) rfl)
  | playLoopback data talkStart talkEnd =>
    refine (yields_pushFrame hcreate (show Rested { s with
      loopbackVoiceId := s.loopbackVoiceId + 1 } from hrested) loopbackTalkerId _).mono ?_
    rintro s' ⟨hrested', -, -, hplayback⟩
    exact filled_of_playback hrested' hplayback

omit [AudioFloat F] in
theorem yields_captured (hcreate : OpusDecoder.create opus = .ok new) (hrested : s.Rested)
    (captured : List CaptureEffect) :
    Yields (captured.foldlM (captureEffect opus) s) (Filled s) := by
  refine Yields.foldlM (R := Filled s) ?_ (filled_of_playback hrested rfl)
  intro s' hfilled effect _
  exact (yields_captureEffect hcreate hfilled.rested effect).mono fun s'' => hfilled.trans

omit [AudioFloat F] in
theorem yields_processIncoming (hcreate : OpusDecoder.create opus = .ok new) (hrested : s.Rested)
    (resets : List UInt16) (frames : List IncomingEncodedFrame) :
    Yields (s.processIncoming opus resets frames) (Filled s) := by
  obtain ⟨hrested₁, -, -, hplayback₁⟩ := foldl_erase hrested resets
  refine (foldlM_push hcreate hrested₁ frames).mono ?_
  rintro s' ⟨hrested₂, -, -, hplayback₂⟩
  exact filled_of_playback hrested₂ (hplayback₂.trans hplayback₁)

/-- **A pass.** The queue keeps what it has, and behind an active device there is enough for a
request like the last one. -/
theorem yields_workerPass (h : opus.Documented) (hcreate : OpusDecoder.create opus = .ok new)
    (hrested : s.Rested) (inputs : WorkerInputs F) :
    Yields (s.workerPass opus inputs) fun s' => Filled s s' ∧
      (s.playback.lastRequest ≠ 0 →
        inputs.now - s.playback.lastRequest < playbackIdleTimeout →
        playbackBufferFrames s.playback.requestSamples ≤ s'.playback.queue.size) := by
  refine (yields_captured hcreate hrested inputs.captured).bind ?_
  intro s₁ hfilled₁
  refine (yields_processIncoming hcreate hfilled₁.rested inputs.resets inputs.frames).bind ?_
  intro s₂ hfilled₂
  refine (yields_pace h hfilled₂.rested inputs.now inputs.mixes).mono ?_
  rintro s₃ ⟨hfilled₃, hfull⟩
  have hfilled := hfilled₁.trans hfilled₂
  refine ⟨hfilled.trans hfilled₃, ?_⟩
  intro hsome hrecent
  rw [← hfilled.calm.requestSamples]
  refine hfull ?_
  simp only [playbackDeviceActive, hfilled.calm.lastRequest, decide_eq_true_eq]
  exact ⟨hsome, hrecent⟩

/-! ## Runs -/

/-- The requests of a run leave the worker time: between two of them that are not an idle time
apart there is a pass, which starts before the second one, and the second one is for no more than
the worker keeps ready after the first one. `previous` is the last request, `pass` the clock of the
first pass behind it. -/
def Paced (previous : Option (TimePoint × ℕ)) (pass : Option TimePoint) : List (Turn F) → Prop
  | [] => True
  | .pass inputs :: rest => Paced previous (pass.or (some inputs.now)) rest
  | .request now size :: rest =>
    (∀ t last, previous = some (t, last) → now - t < playbackIdleTimeout →
      (∃ start, pass = some start ∧ start ≤ now) ∧
        size ≤ samplesPerFrame * playbackBufferFrames last) ∧
    Paced (some (now, size)) none rest

/-- What a paced run keeps. -/
structure InStep (previous : Option (TimePoint × ℕ)) (pass : Option TimePoint)
    (s : AudioEngine D F) : Prop where
  rested : s.Rested
  idle : previous = none → s.playback.lastRequest = 0
  last : ∀ t last, previous = some (t, last) →
    s.playback.lastRequest = t ∧ s.playback.requestSamples = last
  full : ∀ start, pass = some start → s.playback.lastRequest ≠ 0 →
    start - s.playback.lastRequest < playbackIdleTimeout →
    playbackBufferFrames s.playback.requestSamples ≤ s.playback.queue.size

variable {previous : Option (TimePoint × ℕ)} {pass : Option TimePoint}

theorem InStep.workerPass (hstep : InStep previous pass s) (h : opus.Documented)
    (hcreate : OpusDecoder.create opus = .ok new) (inputs : WorkerInputs F) :
    Yields (s.workerPass opus inputs) fun s' =>
      InStep previous (pass.or (some inputs.now)) s' ∧
        s'.playback.underruns = s.playback.underruns := by
  refine (yields_workerPass h hcreate hstep.rested inputs).mono ?_
  rintro s' ⟨hfilled, hfull⟩
  refine ⟨⟨hfilled.rested, ?_, ?_, ?_⟩, hfilled.calm.underruns⟩
  · intro hnone
    exact hfilled.calm.lastRequest.trans (hstep.idle hnone)
  · intro t last hprevious
    rw [hfilled.calm.lastRequest, hfilled.calm.requestSamples]
    exact hstep.last t last hprevious
  · intro start hstart
    rw [hfilled.calm.lastRequest, hfilled.calm.requestSamples]
    intro hsome hrecent
    cases pass with
    | none =>
      cases hstart
      exact hfull hsome hrecent
    | some first =>
      cases hstart
      exact (hstep.full _ rfl hsome hrecent).trans hfilled.size_le

omit [AudioFloat F] in
theorem InStep.request [Zero F] (hstep : InStep previous pass s) {now : TimePoint} {size : ℕ}
    (hpaced : ∀ t last, previous = some (t, last) → now - t < playbackIdleTimeout →
      (∃ start, pass = some start ∧ start ≤ now) ∧
        size ≤ samplesPerFrame * playbackBufferFrames last) :
    InStep (some (now, size)) none { s with
        playback := s.playback.renderPlayback 0 now (fun _ => []) size } ∧
      (s.playback.renderPlayback 0 now (fun _ => []) size).underruns = s.playback.underruns := by
  obtain ⟨hlast, hsize, hunderruns⟩ := Playback.renderPlayback_calm (0 : F) now size
    (s := s.playback) (by
      intro hsome hrecent
      cases hprevious : previous with
      | none => exact absurd (hstep.idle hprevious) hsome
      | some request =>
        obtain ⟨t, last⟩ := request
        obtain ⟨ht, hlast⟩ := hstep.last t last hprevious
        obtain ⟨⟨start, hstart, hbefore⟩, hle⟩ := hpaced t last hprevious (ht ▸ hrecent)
        have hfull := hstep.full start hstart hsome
          (lt_of_le_of_lt (Int.sub_le_sub_right hbefore _) hrecent)
        rw [hlast] at hfull
        exact hle.trans (Nat.mul_le_mul_left _ hfull))
  refine ⟨⟨hstep.rested, ?_, ?_, ?_⟩, hunderruns⟩
  · intro hnone
    cases hnone
  · intro t last hprevious
    cases hprevious
    exact ⟨hlast, hsize⟩
  · intro start hstart
    cases hstart

/-- **No gaps.** In a run whose requests leave the worker time for a pass, no request that finds the
device active runs out of samples, whatever the talkers send. -/
theorem no_underruns (h : opus.Documented) (hcreate : OpusDecoder.create opus = .ok new)
    {steps : List (Turn F)} (hpaced : Paced none none steps) {playback : Playback F}
    (hidle : playback.lastRequest = 0) (nextMix : TimePoint) :
    ∃ t : AudioEngine D F, turns opus steps { playback, nextMix } = .ok t ∧
      t.playback.underruns = playback.underruns := by
  have hrun : ∀ {previous pass} {s : AudioEngine D F}, Paced previous pass steps →
      InStep previous pass s → Yields (turns opus steps s) fun t =>
        t.playback.underruns = s.playback.underruns := by
    clear hpaced
    induction steps with
    | nil =>
      intro previous pass s _ _
      exact .ok rfl
    | cons step steps ih =>
      intro previous pass s hpaced hstep
      unfold turns
      rw [List.foldlM_cons]
      cases step with
      | pass inputs =>
        refine (hstep.workerPass h hcreate inputs).bind ?_
        rintro s' ⟨hstep', hunderruns⟩
        exact (ih hpaced hstep').mono fun t ht => ht.trans hunderruns
      | request now size =>
        obtain ⟨hstep', hunderruns⟩ := hstep.request hpaced.1
        exact (ih hpaced.2 hstep').mono fun t ht => ht.trans hunderruns
  refine hrun hpaced ⟨?_, fun _ => hidle, ?_, ?_⟩
  · intro c talker hfind
    cases hfind
  · intro t last hprevious
    cases hprevious
  · intro start hstart
    cases hstart

/-- Two requests, with a pass between them. -/
theorem no_underruns_twoRequests : ∃ t,
    turns byteCodec [.request 1000 480, .pass { now := 2000 }, .request 10000000 960]
      { playback := silentPlayback, nextMix := 0 } = .ok t ∧
      t.playback.underruns = silentPlayback.underruns := by
  refine no_underruns documented_byteCodec rfl ?_ rfl 0
  refine ⟨?_, ?_, trivial⟩
  · intro t last hprevious
    cases hprevious
  · intro t last hprevious _
    cases hprevious
    exact ⟨⟨2000, rfl, by norm_num⟩, by decide⟩

end AudioEngine

end TsCli
