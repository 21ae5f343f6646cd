import TsCli.Audio.CaptureFraming

/-!
# Rendering the playback queue

The output device asks for samples in requests of any size. `RenderPlayback` copies them from the
current frame, takes the next frame from the queue when that one is used up, and fills the rest of
the request with silence when the queue is empty. The stream of the queued frames is only ever cut
at its front: what was heard and what is still unplayed are together what was queued.

The worker pushes mixed frames at any time: those that it pushes before each pop of a call are an
input of the step. Two logs that no definition reads keep the answered requests and the frames that
the queue took.
-/

namespace TsCli

def playbackQueueCapacity : ℕ := 32

/-- `PlaybackIdleTimeout`, in nanoseconds. -/
def playbackIdleTimeout : ℤ := 250 * 1000000

/-- What `RenderPlayback` reads and writes. -/
structure PlaybackBuffers (α : Type) where
  /-- `m_PlaybackCurrent.samples`. -/
  current : FrameSamples α
  /-- `m_PlaybackOffset`. -/
  offset : ℕ := samplesPerFrame
  queue : SpscRing (FrameSamples α) playbackQueueCapacity
  lastRequest : ℤ := 0
  requestSamples : ℕ := samplesPerFrame
  underruns : UInt64 := 0
  offset_le : offset ≤ samplesPerFrame

/-- An answered request: its output, how much of it was copied from frames, and the offset and the
queue at the point where the copying ended. -/
structure Playback.Rendered (α : Type) where
  output : List α
  copied : ℕ
  offset : ℕ
  waiting : List (FrameSamples α)

/-- The buffers, with the logs. -/
structure Playback (α : Type) extends PlaybackBuffers α where
  rendered : List (Playback.Rendered α) := []
  queued : List (FrameSamples α) := []

namespace Playback

variable {α : Type}

/-- The worker pushes a frame, which a full queue refuses. -/
def push (s : Playback α) (frame : FrameSamples α) : Playback α :=
  let (stored, queue) := s.queue.tryPush frame
  { s with queue, queued := if stored then s.queued ++ [frame] else s.queued }

/-- The end of the loop of `RenderPlayback`, with what is written and what is filled up. -/
def answer (s : Playback α) (written fill : List α) : Playback α :=
  { s with rendered := s.rendered ++ [{
      output := written ++ fill
      copied := written.length
      offset := s.offset
      waiting := s.queue.contents }] }

/-- A request that comes back from idle is no underrun. -/
def countUnderrun (s : Playback α) (wasActive : Bool) : Playback α :=
  { s with underruns := if wasActive then s.underruns + 1 else s.underruns }

/-- `TryPop` of the next frame into `m_PlaybackCurrent`. -/
def nextFrame (s : Playback α) : Option (Playback α) :=
  match s.queue.tryPop with
  | (none, _) => none
  | (some frame, queue) => some { s with current := frame, queue, offset := 0, offset_le := by decide }

/-- What `RenderPlayback` copies in one pass of its loop. -/
def copied (size : ℕ) (written : List α) (s : Playback α) : List α :=
  (s.current.toList.drop s.offset).take (size - written.length)

/-- The copy moves the offset. -/
def advance (s : Playback α) (count : ℕ) : Playback α :=
  { s with
    offset := s.offset + min (samplesPerFrame - s.offset) count
    offset_le := by
      have h := s.offset_le
      omega }

/-- The loop of `RenderPlayback`. `pushes i` are the frames that the worker pushes before the pop
`i` of the call. -/
def renderLoop (silence : α) (wasActive : Bool) (pushes : ℕ → List (FrameSamples α)) (size : ℕ) :
    ℕ → ℕ → List α → Playback α → Playback α
  | 0, _, _, s => s
  | fuel + 1, i, written, s =>
    if size ≤ written.length then s.answer written []
    else if s.offset ≥ samplesPerFrame then
      let s := (pushes i).foldl push s
      match s.nextFrame with
      | none =>
        (s.countUnderrun wasActive).answer written
          (List.replicate (size - written.length) silence)
      | some s =>
        renderLoop silence wasActive pushes size fuel (i + 1) (written ++ s.copied size written)
          (s.advance (size - written.length))
    else
      renderLoop silence wasActive pushes size fuel i (written ++ s.copied size written)
        (s.advance (size - written.length))

/-- `AudioEngine::RenderPlayback`. Every pass of its loop writes a sample or more. -/
def renderPlayback (silence : α) (now : ℤ) (pushes : ℕ → List (FrameSamples α)) (size : ℕ)
    (s : Playback α) : Playback α :=
  let previous := s.lastRequest
  let wasActive := previous ≠ 0 && now - previous < playbackIdleTimeout
  renderLoop silence wasActive pushes size (size + 1) 0 []
    { s with lastRequest := now, requestSamples := size }

/-- A request of the device, or a push between two requests. -/
inductive Step (α : Type)
  | render (now : ℤ) (pushes : ℕ → List (FrameSamples α)) (size : ℕ)
  | push (frame : FrameSamples α)

def step (silence : α) (s : Playback α) : Step α → Playback α
  | .render now pushes size => s.renderPlayback silence now pushes size
  | .push frame => s.push frame

/-- The number of samples that the step asks for. -/
def Step.size? : Step α → Option ℕ
  | .render _ _ size => some size
  | .push _ => none

/-- A run from some buffers on. -/
def run (silence : α) (buffers : PlaybackBuffers α) (steps : List (Step α)) : Playback α :=
  steps.foldl (step silence) { buffers with }

/-! ## The stream -/

/-- The samples of some frames. -/
def stream (frames : List (FrameSamples α)) : List α := frames.flatMap Vector.toList

/-- What can still be played. -/
def unplayed (buffers : PlaybackBuffers α) : List α :=
  buffers.current.toList.drop buffers.offset ++ stream buffers.queue.contents

/-- The output without the silence that was filled in. -/
def Rendered.heard (request : Rendered α) : List α := request.output.take request.copied

/-! ## Moves inside a request -/

/-- A move of the worker or of the loop: the queue took some frames, and what is written and what is
unplayed are together what they were, with those frames behind them. -/
structure Moved (s : Playback α) (written : List α) (s' : Playback α) (written' : List α)
    (frames : List (FrameSamples α)) : Prop where
  rendered : s'.rendered = s.rendered
  queued : s'.queued = s.queued ++ frames
  stream : written ++ unplayed s.toPlaybackBuffers ++ stream frames =
    written' ++ unplayed s'.toPlaybackBuffers

theorem stream_append (front back : List (FrameSamples α)) :
    stream (front ++ back) = stream front ++ stream back := List.flatMap_append

theorem Moved.refl (s : Playback α) (written : List α) : Moved s written s written [] where
  rendered := rfl
  queued := (List.append_nil _).symm
  stream := List.append_nil _

theorem Moved.trans {s s' s'' : Playback α} {written written' written'' : List α}
    {frames frames' : List (FrameSamples α)} (h : Moved s written s' written' frames)
    (h' : Moved s' written' s'' written'' frames') :
    Moved s written s'' written'' (frames ++ frames') where
  rendered := h'.rendered.trans h.rendered
  queued := by rw [h'.queued, h.queued, List.append_assoc]
  stream := by rw [stream_append, ← List.append_assoc, h.stream, h'.stream]

/-- The frame that a push takes, if any. -/
theorem moved_push (s : Playback α) (frame : FrameSamples α) (written : List α) :
    ∃ frames, Moved s written (s.push frame) written frames := by
  unfold push
  rcases s.queue.tryPush_cases frame with ⟨-, hpush⟩ | ⟨-, hpush, hcontents⟩
  · rw [hpush]
    exact ⟨[], .refl s written⟩
  · refine ⟨[frame], ?_, ?_, ?_⟩
    · rfl
    · show (if (s.queue.tryPush frame).1 then s.queued ++ [frame] else s.queued) = _
      rw [hpush]
      rfl
    · show _ = written ++ (s.current.toList.drop s.offset ++
        Playback.stream (s.queue.tryPush frame).2.contents)
      rw [hcontents, stream_append, unplayed, List.append_assoc, List.append_assoc]

theorem moved_pushes (s : Playback α) (frames : List (FrameSamples α)) (written : List α) :
    ∃ taken, Moved s written (frames.foldl push s) written taken ∧ (frames = [] → taken = []) := by
  induction frames generalizing s with
  | nil => exact ⟨[], .refl s written, fun _ => rfl⟩
  | cons frame frames ih =>
    obtain ⟨first, hfirst⟩ := moved_push s frame written
    obtain ⟨others, hothers, -⟩ := ih (s.push frame)
    exact ⟨first ++ others, hfirst.trans hothers, nofun⟩

theorem offset_pushes (s : Playback α) (frames : List (FrameSamples α)) :
    (frames.foldl push s).offset = s.offset := by
  induction frames generalizing s with
  | nil => rfl
  | cons frame frames ih => exact ih (s.push frame)

/-- The next frame is the head of the queue. -/
theorem moved_nextFrame {s s' : Playback α} (hused : samplesPerFrame ≤ s.offset)
    (h : s.nextFrame = some s') (written : List α) :
    Moved s written s' written [] ∧ s'.offset = 0 := by
  have hdrop : s.current.toList.drop s.offset = [] :=
    List.drop_eq_nil_of_le (by rw [Vector.length_toList]; exact hused)
  unfold nextFrame at h
  rcases s.queue.tryPop_cases with ⟨-, hpop⟩ | ⟨frame, hframe, hcontents⟩
  · rw [hpop] at h
    cases h
  · have hpop : s.queue.tryPop = (some frame, s.queue.tryPop.2) := Prod.ext hframe rfl
    rw [hpop] at h
    cases h
    refine ⟨⟨rfl, (List.append_nil _).symm, ?_⟩, rfl⟩
    show written ++ unplayed s.toPlaybackBuffers ++ [] =
      written ++ (frame.toList ++ Playback.stream s.queue.tryPop.2.contents)
    rw [List.append_nil, unplayed, hdrop, hcontents]
    rfl

theorem contents_of_nextFrame {s : Playback α} (h : s.nextFrame = none) :
    s.queue.contents = [] := by
  unfold nextFrame at h
  rcases s.queue.tryPop_cases with ⟨hempty, -⟩ | ⟨frame, hframe, -⟩
  · exact hempty
  · have hpop : s.queue.tryPop = (some frame, s.queue.tryPop.2) := Prod.ext hframe rfl
    rw [hpop] at h
    cases h

/-- The copy takes the front of what is unplayed. -/
theorem moved_copied (s : Playback α) (size : ℕ) (written : List α) :
    Moved s written (s.advance (size - written.length)) (written ++ s.copied size written) [] := by
  refine ⟨rfl, (List.append_nil _).symm, ?_⟩
  have hsplit : s.current.toList.drop s.offset =
      s.copied size written ++ s.current.toList.drop
        (s.offset + min (samplesPerFrame - s.offset) (size - written.length)) := by
    unfold copied
    rw [← List.drop_drop]
    conv_lhs => rw [← List.take_append_drop (size - written.length)
      (s.current.toList.drop s.offset)]
    congr 1
    rcases le_total (size - written.length) (samplesPerFrame - s.offset) with hle | hle
    · rw [min_eq_right hle]
    · rw [min_eq_left hle, List.drop_eq_nil_of_le, List.drop_eq_nil_of_le]
      · rw [List.length_drop, Vector.length_toList]
      · rw [List.length_drop, Vector.length_toList]
        exact hle
  show written ++ unplayed s.toPlaybackBuffers ++ [] = (written ++ s.copied size written) ++
    (s.current.toList.drop (s.offset + min (samplesPerFrame - s.offset) (size - written.length)) ++
      Playback.stream s.queue.contents)
  rw [List.append_nil, unplayed, hsplit]
  simp only [List.append_assoc]

theorem length_copied {s : Playback α} (hleft : s.offset < samplesPerFrame) {size : ℕ}
    {written : List α} (hlt : written.length < size) :
    written.length < (written ++ s.copied size written).length ∧
      (written ++ s.copied size written).length ≤ size := by
  rw [List.length_append, copied, List.length_take, List.length_drop, Vector.length_toList]
  omega

/-! ## A request -/

/-- The request was answered with `size` samples: those that it copied from frames, and silence only
from where the frame is used up and the queue is empty. -/
structure Rendered.Complete (silence : α) (size : ℕ) (request : Rendered α) : Prop where
  length_output : request.output.length = size
  copied_le : request.copied ≤ size
  filled : request.output = request.heard ++ List.replicate (size - request.copied) silence
  exhausted : request.copied < size → request.offset = samplesPerFrame ∧ request.waiting = []

/-- What a call leaves behind, with its answer and the frames that the queue took meanwhile. -/
structure Answered (silence : α) (size : ℕ) (s : Playback α) (written : List α) (s' : Playback α)
    (request : Rendered α) (frames : List (FrameSamples α)) : Prop where
  complete : request.Complete silence size
  offset_eq : request.offset = s'.offset
  waiting_eq : request.waiting = s'.queue.contents
  rendered : s'.rendered = s.rendered ++ [request]
  queued : s'.queued = s.queued ++ frames
  stream : written ++ unplayed s.toPlaybackBuffers ++ stream frames =
    request.heard ++ unplayed s'.toPlaybackBuffers

/-- Moves before the answer. -/
theorem Moved.answered {silence : α} {size : ℕ} {s s' s'' : Playback α} {written written' : List α}
    {request : Rendered α} {frames frames' : List (FrameSamples α)}
    (h : Moved s written s' written' frames)
    (h' : Answered silence size s' written' s'' request frames') :
    Answered silence size s written s'' request (frames ++ frames') where
  complete := h'.complete
  offset_eq := h'.offset_eq
  waiting_eq := h'.waiting_eq
  rendered := by rw [h'.rendered, h.rendered]
  queued := by rw [h'.queued, h.queued, List.append_assoc]
  stream := by rw [stream_append, ← List.append_assoc, h.stream, h'.stream]

/-- The answer, once the copying has ended. -/
theorem answered_answer {silence : α} {size : ℕ} (s : Playback α) {written : List α}
    (hle : written.length ≤ size)
    (hexhausted : written.length < size → s.offset = samplesPerFrame ∧ s.queue.contents = []) :
    Answered silence size s written
      (s.answer written (List.replicate (size - written.length) silence))
      ⟨written ++ List.replicate (size - written.length) silence, written.length, s.offset,
        s.queue.contents⟩ [] := by
  have hheard : (written ++ List.replicate (size - written.length) silence).take written.length =
      written := List.take_left
  refine ⟨⟨?_, hle, ?_, hexhausted⟩, rfl, rfl, rfl, (List.append_nil _).symm, ?_⟩
  · rw [List.length_append, List.length_replicate]
    omega
  · rw [Rendered.heard, hheard]
  · rw [Rendered.heard, hheard]
    exact List.append_nil _

/-- The loop answers its request, by induction on the budget: every pass writes something. -/
theorem answered_renderLoop (silence : α) (wasActive : Bool) (pushes : ℕ → List (FrameSamples α))
    {size fuel i : ℕ} {written : List α} {s : Playback α} (hle : written.length ≤ size)
    (hfuel : size - written.length < fuel) :
    ∃ request frames, Answered silence size s written
      (renderLoop silence wasActive pushes size fuel i written s) request frames ∧
        ((∀ i, pushes i = []) → frames = []) := by
  induction fuel generalizing i written s with
  | zero => exact absurd hfuel (Nat.not_lt_zero _)
  | succ fuel ih =>
    -- a pass that copies
    have hpass : ∀ (i : ℕ) (s : Playback α), s.offset < samplesPerFrame → written.length < size →
        ∃ request frames, Answered silence size s written
          (renderLoop silence wasActive pushes size fuel i (written ++ s.copied size written)
            (s.advance (size - written.length))) request frames ∧
          ((∀ i, pushes i = []) → frames = []) := fun i s hleft hlt => by
      obtain ⟨hmore, hle'⟩ := length_copied hleft hlt
      obtain ⟨request, frames, hanswered, hnone⟩ := ih (i := i)
        (s := s.advance (size - written.length)) hle' (by omega)
      exact ⟨request, [] ++ frames, (moved_copied s size written).answered hanswered, hnone⟩
    rw [renderLoop]
    split_ifs with hfull hused
    · have hsize : size = written.length := le_antisymm hfull hle
      have hanswer : Answered silence size s written _ _ [] :=
        answered_answer s hle fun hlt => absurd hsize hlt.ne'
      rw [Nat.sub_eq_zero_of_le hfull] at hanswer
      exact ⟨_, _, hanswer, fun _ => rfl⟩
    · obtain ⟨taken, hpushed, hnone⟩ := moved_pushes s (pushes i) written
      have hoffset := offset_pushes s (pushes i)
      cases hnext : ((pushes i).foldl push s).nextFrame with
      | none =>
        simp only [hnext]
        have hempty := contents_of_nextFrame hnext
        have hend : s.offset = samplesPerFrame := le_antisymm s.offset_le hused
        have hcounted : Moved ((pushes i).foldl push s) written
            (((pushes i).foldl push s).countUnderrun wasActive) written [] :=
          ⟨rfl, (List.append_nil _).symm, List.append_nil _⟩
        have hanswer : Answered silence size (((pushes i).foldl push s).countUnderrun wasActive)
            written _ _ [] := answered_answer _ hle fun _ => ⟨hoffset.trans hend, hempty⟩
        refine ⟨_, _, hpushed.answered (hcounted.answered hanswer), fun h => ?_⟩
        rw [hnone (h i)]
        rfl
      | some s' =>
        simp only [hnext]
        obtain ⟨hmoved, hstart⟩ := moved_nextFrame (le_of_le_of_eq hused hoffset.symm) hnext written
        obtain ⟨request, frames, hanswered, hnone'⟩ := hpass (i + 1) s'
          (by rw [hstart]; decide) (not_le.1 hfull)
        refine ⟨request, taken ++ ([] ++ frames),
          hpushed.answered (hmoved.answered hanswered), fun h => ?_⟩
        rw [hnone (h i), hnone' h]
        rfl
    · exact hpass i s (Nat.lt_of_not_le hused) (not_le.1 hfull)

/-- **One request.** -/
theorem answered_renderPlayback (silence : α) (now : ℤ) (pushes : ℕ → List (FrameSamples α))
    (size : ℕ) (s : Playback α) : ∃ request frames,
      Answered silence size s [] (s.renderPlayback silence now pushes size) request frames ∧
        ((∀ i, pushes i = []) → frames = []) := by
  obtain ⟨request, frames, hanswered, hnone⟩ := answered_renderLoop silence
    (s.lastRequest ≠ 0 && now - s.lastRequest < playbackIdleTimeout) pushes (i := 0)
    (s := { s with lastRequest := now, requestSamples := size })
    (show ([] : List α).length ≤ size from Nat.zero_le size) (Nat.lt_succ_self size)
  have hstart : Moved s [] { s with lastRequest := now, requestSamples := size } [] [] :=
    ⟨rfl, (List.append_nil _).symm, List.append_nil _⟩
  exact ⟨request, [] ++ frames, hstart.answered hanswered, hnone⟩

/-! ## Runs -/

/-- What was heard, over all requests. -/
def heard (s : Playback α) : List α := s.rendered.flatMap Rendered.heard

/-- All output. -/
def output (s : Playback α) : List α := s.rendered.flatMap Rendered.output

/-- The requests were answered, and nothing of the stream is lost or heard twice. -/
structure Exact (silence : α) (start : List α) (sizes : List ℕ) (s : Playback α) : Prop where
  answered : List.Forall₂ (fun size request => Rendered.Complete silence size request) sizes s.rendered
  stream_eq : s.heard ++ unplayed s.toPlaybackBuffers = start ++ stream s.queued

theorem Exact.step {silence : α} {start : List α} {sizes : List ℕ} {s : Playback α}
    (h : Exact silence start sizes s) (step : Step α) :
    Exact silence start (sizes ++ step.size?.toList) (s.step silence step) := by
  cases step with
  | push frame =>
    obtain ⟨frames, hmoved⟩ := moved_push s frame []
    show Exact silence start (sizes ++ []) (s.push frame)
    rw [List.append_nil]
    refine ⟨hmoved.rendered ▸ h.answered, ?_⟩
    have hstream : unplayed (s.push frame).toPlaybackBuffers =
        unplayed s.toPlaybackBuffers ++ stream frames := hmoved.stream.symm
    rw [hstream, hmoved.queued, stream_append, heard, hmoved.rendered, ← List.append_assoc,
      ← List.append_assoc, ← h.stream_eq]
    rfl
  | render now pushes size =>
    obtain ⟨request, frames, hanswered, -⟩ := answered_renderPlayback silence now pushes size s
    show Exact silence start (sizes ++ [size]) (s.renderPlayback silence now pushes size)
    refine ⟨?_, ?_⟩
    · rw [hanswered.rendered]
      exact List.rel_append h.answered (.cons hanswered.complete .nil)
    · have hstream : unplayed s.toPlaybackBuffers ++ stream frames = _ := hanswered.stream
      rw [hanswered.queued, stream_append, ← List.append_assoc, ← h.stream_eq, List.append_assoc,
        hstream, heard, hanswered.rendered, List.flatMap_append, List.append_assoc]
      simp [heard]

theorem exact_run (silence : α) (buffers : PlaybackBuffers α) (steps : List (Step α)) :
    Exact silence (unplayed buffers) (steps.filterMap Step.size?) (run silence buffers steps) := by
  induction steps using List.reverseRecOn with
  | nil => exact ⟨.nil, (List.append_nil _).symm⟩
  | append_singleton steps step ih =>
    have hsizes : [step].filterMap Step.size? = step.size?.toList := by
      cases step with
      | render now pushes size => rfl
      | push frame => rfl
    rw [run, List.foldl_append, List.filterMap_append, hsizes]
    exact ih.step step

/-! ## Splits of a request -/

/-- The front of the stream, with silence behind its end. -/
def padded (silence : α) (size : ℕ) (samples : List α) : List α :=
  samples.take size ++ List.replicate (size - samples.length) silence

theorem padded_add (silence : α) (first second : ℕ) (samples : List α) :
    padded silence (first + second) samples =
      padded silence first samples ++ padded silence second (samples.drop first) := by
  unfold padded
  rw [List.take_add, List.length_drop]
  rcases le_total samples.length first with hle | hle
  · have hcount : first + second - samples.length = (first - samples.length) + second := by omega
    rw [List.drop_eq_nil_of_le hle, List.take_nil, List.append_nil, List.nil_append, hcount,
      Nat.sub_eq_zero_of_le hle, Nat.sub_zero, List.replicate_add, List.append_assoc]
  · have hcount : first + second - samples.length = second - (samples.length - first) := by omega
    rw [Nat.sub_eq_zero_of_le hle, hcount, List.replicate_zero, List.append_nil,
      List.append_assoc]

/-- A request during which no frame comes in is the front of what is unplayed. -/
theorem Answered.output_eq {silence : α} {size : ℕ} {s s' : Playback α} {request : Rendered α}
    (h : Answered silence size s [] s' request []) :
    request.output = padded silence size (unplayed s.toPlaybackBuffers) ∧
      unplayed s'.toPlaybackBuffers = (unplayed s.toPlaybackBuffers).drop size := by
  have hstream : unplayed s.toPlaybackBuffers = request.heard ++ unplayed s'.toPlaybackBuffers := by
    have hstream := h.stream
    rwa [List.nil_append, show Playback.stream ([] : List (FrameSamples α)) = [] from rfl,
      List.append_nil] at hstream
  have hlength : request.heard.length = request.copied := by
    rw [Rendered.heard, List.length_take, h.complete.length_output, min_eq_left h.complete.copied_le]
  rw [h.complete.filled, padded, hstream]
  rcases h.complete.copied_le.lt_or_eq with hlt | heq
  · -- the silence starts where nothing is left
    obtain ⟨hoffset, hwaiting⟩ := h.complete.exhausted hlt
    have hrest : unplayed s'.toPlaybackBuffers = [] := by
      rw [unplayed, ← h.offset_eq, ← h.waiting_eq, hoffset, hwaiting, List.drop_eq_nil_of_le]
      · rfl
      · exact (Vector.length_toList).le
    have hle : request.heard.length ≤ size := by omega
    rw [hrest, List.append_nil, List.take_of_length_le hle, List.drop_eq_nil_of_le hle, hlength]
    exact ⟨rfl, rfl⟩
  · have hsize : size = request.heard.length := by omega
    have htake : (request.heard ++ unplayed s'.toPlaybackBuffers).take size = request.heard :=
      hsize ▸ List.take_left
    have hdrop : (request.heard ++ unplayed s'.toPlaybackBuffers).drop size =
        unplayed s'.toPlaybackBuffers := hsize ▸ List.drop_left
    rw [htake, hdrop, List.length_append, heq, Nat.sub_self, ← hsize,
      Nat.sub_eq_zero_of_le (Nat.le_add_right _ _)]
    exact ⟨rfl, rfl⟩

/-- Requests between which no frame comes in, each with its time and size. -/
def requests (parts : List (ℤ × ℕ)) : List (Step α) :=
  parts.map fun part => .render part.1 (fun _ => []) part.2

theorem output_requests (silence : α) (parts : List (ℤ × ℕ)) (s : Playback α) :
    ((requests parts).foldl (step silence) s).output =
      s.output ++ padded silence (parts.map Prod.snd).sum (unplayed s.toPlaybackBuffers) := by
  induction parts generalizing s with
  | nil =>
    show s.output = s.output ++ (List.take 0 _ ++ List.replicate (0 - _) silence)
    rw [List.take_zero, Nat.zero_sub, List.replicate_zero, List.append_nil, List.append_nil]
  | cons part parts ih =>
    obtain ⟨request, frames, hanswered, hnone⟩ :=
      answered_renderPlayback silence part.1 (fun _ => []) part.2 s
    rw [hnone fun _ => rfl] at hanswered
    obtain ⟨houtput, hunplayed⟩ := hanswered.output_eq
    have hfirst : (s.renderPlayback silence part.1 (fun _ => []) part.2).output =
        s.output ++ request.output := by
      rw [output, hanswered.rendered, List.flatMap_append]
      exact congrArg _ (List.append_nil _)
    show ((requests parts).foldl (step silence)
      (s.renderPlayback silence part.1 (fun _ => []) part.2)).output = _
    rw [ih, hfirst, hunplayed, houtput, List.map_cons, List.sum_cons, padded_add,
      List.append_assoc]

/-- **Playback loses and repeats nothing.** Every request is written in full, with silence only from
where the frame is used up and the queue is empty. What was heard is a prefix of the stream, and
requests of the same total length have the same output. -/
theorem playback_rendering (silence : α) (buffers : PlaybackBuffers α) (steps : List (Step α)) :
    List.Forall₂ (Rendered.Complete silence) (steps.filterMap Step.size?)
        (run silence buffers steps).rendered ∧
      (run silence buffers steps).heard <+:
        unplayed buffers ++ stream (run silence buffers steps).queued ∧
      ∀ parts parts' : List (ℤ × ℕ), (parts.map Prod.snd).sum = (parts'.map Prod.snd).sum →
        (run silence buffers (steps ++ requests parts)).output =
          (run silence buffers (steps ++ requests parts')).output := by
  have hexact := exact_run silence buffers steps
  refine ⟨hexact.answered, ⟨_, hexact.stream_eq⟩, fun parts parts' htotal => ?_⟩
  unfold run
  rw [List.foldl_append, List.foldl_append, output_requests, output_requests, htotal]

/-- The buffers of a new engine. -/
def initialBuffers : PlaybackBuffers ℤ where
  current := Vector.replicate samplesPerFrame 0
  queue := { data := fun _ => Vector.replicate samplesPerFrame 0, write_lt := by decide, read_lt := by decide }
  offset_le := le_rfl

/-- Two queued frames, asked for in one piece or in three, with an underrun at the end. -/
theorem playback_rendering_pieces :
    let steps : List (Step ℤ) := [.push (Vector.replicate samplesPerFrame 5),
      .render 7 (fun _ => []) 100, .push (Vector.replicate samplesPerFrame 6)]
    (run 0 initialBuffers (steps ++ requests [(8, 1900)])).output =
      (run 0 initialBuffers (steps ++ requests [(8, 900), (9, 960), (10, 40)])).output :=
  (playback_rendering 0 initialBuffers _).2.2 [(8, 1900)] [(8, 900), (9, 960), (10, 40)] rfl

end Playback

end TsCli
