import TsCli.Audio.TransmitPath
import TsCli.Lib.Blocks

/-!
# Framing the captured samples

The capture callback gets samples in spans of any length and copies them into an array of one
frame. Whenever the array is full, it is offered to the queue, and the next sample goes to its
start. What the callback offers is therefore the stream of samples in blocks of a frame, whatever
the spans (`Framed`), and a full queue costs exactly the frame that it refuses.

The worker pops frames at any time: how many it has popped before each offer is an input of the
step. The offers and the popped frames are kept in two logs that no definition reads.
-/

namespace TsCli

open Blocks

/-- `std::copy_n` into an array, from an offset on. -/
def copyN {α : Type} {size : ℕ} (source : List α) (count : ℕ) (target : Vector α size)
    (offset : ℕ) : Vector α size :=
  Vector.ofFn fun i =>
    if offset ≤ i ∧ i < offset + count then source.getD (i - offset) target[i] else target[i]

theorem getElem_copyN {α : Type} {size : ℕ} (source : List α) (count : ℕ) (target : Vector α size)
    (offset : ℕ) {i : ℕ} (hi : i < size) : (copyN source count target offset)[i] =
      if offset ≤ i ∧ i < offset + count then source.getD (i - offset) target[i] else target[i] :=
  Vector.getElem_ofFn hi

/-- The cells up to the end of the copy. -/
theorem take_copyN {α : Type} {size : ℕ} {source : List α} {count offset : ℕ}
    (target : Vector α size) (hcount : count ≤ source.length) (hsize : offset + count ≤ size) :
    (copyN source count target offset).toList.take (offset + count) =
      target.toList.take offset ++ source.take count := by
  refine List.ext_getElem ?_ fun i hi hi' => ?_
  · simp only [List.length_take, List.length_append, Vector.length_toList]
    omega
  · simp only [List.length_take, Vector.length_toList] at hi
    rw [List.getElem_take, Vector.getElem_toList, getElem_copyN _ _ _ _ (by omega),
      List.getElem_append]
    simp only [List.length_take, Vector.length_toList, List.getElem_take, Vector.getElem_toList]
    by_cases hlt : i < offset
    · rw [if_neg (by omega), dif_pos (by omega)]
    · rw [if_pos (by omega), dif_neg (by omega), List.getD_eq_getElem?_getD, List.getElem?_eq_getElem (by omega)]
      exact getElem_congr_idx (by omega)

/-- The samples of a `PcmFrame`. -/
abbrev FrameSamples (α : Type) := Vector α samplesPerFrame

/-- What the capture callback reads and writes. -/
structure CaptureBuffers (α : Type) where
  /-- `m_CaptureAssembly.samples`. -/
  assembly : FrameSamples α
  /-- `m_CaptureAssemblyOffset`. -/
  offset : ℕ := 0
  queue : SpscRing (FrameSamples α) captureQueueCapacity
  drops : UInt64 := 0
  offset_lt : offset < samplesPerFrame

/-- A frame that was offered to the queue, with the frames that were waiting there. -/
structure Offer (α : Type) where
  frame : FrameSamples α
  waiting : List (FrameSamples α)
  stored : Bool

/-- The buffers, with the logs. -/
structure Capture (α : Type) extends CaptureBuffers α where
  offers : List (Offer α) := []
  popped : List (FrameSamples α) := []

namespace Capture

variable {α : Type}

/-- The worker pops a frame. -/
def pop (s : Capture α) : Capture α :=
  match s.queue.tryPop with
  | (none, _) => s
  | (some frame, queue) => { s with queue, popped := s.popped ++ [frame] }

/-- `OnCapturedSamples` with a full array: it is pushed, or counted as dropped. -/
def offer (s : Capture α) : Capture α :=
  let (stored, queue) := s.queue.tryPush s.assembly
  { s with
    queue
    drops := if stored then s.drops else s.drops + 1
    offers := s.offers ++ [{ frame := s.assembly, waiting := s.queue.contents, stored }] }

theorem copied_le (s : Capture α) (samples : List α) :
    s.offset + min (samplesPerFrame - s.offset) samples.length ≤ samplesPerFrame := by
  have h := s.offset_lt
  omega

/-- The loop of `OnCapturedSamples` over the samples that are not copied yet. `pops i` are the
frames that the worker pops before the offer `i` of the call. -/
def captureLoop (pops : ℕ → ℕ) : ℕ → ℕ → List α → Capture α → Capture α
  | 0, _, _, s => s
  | fuel + 1, i, samples, s =>
    if samples.isEmpty then s
    else
      let remaining := samplesPerFrame - s.offset
      let count := min remaining samples.length
      let assembly := copyN samples count s.assembly s.offset
      if h : s.offset + count ≠ samplesPerFrame then
        captureLoop pops fuel i (samples.drop count)
          { s with assembly, offset := s.offset + count, offset_lt := (s.copied_le samples).lt_of_ne h }
      else
        captureLoop pops fuel (i + 1) (samples.drop count)
          { (pop^[pops i] { s with assembly }).offer with offset := 0, offset_lt := by decide }

/-- `AudioEngine::OnCapturedSamples`. Every pass of its loop copies a sample or more. -/
def onCapturedSamples (transmitEnabled : Bool) (monitor : CaptureMonitor) (pops : ℕ → ℕ)
    (samples : List α) (s : Capture α) : Capture α :=
  if !transmitEnabled && monitor = .off then { s with offset := 0, offset_lt := by decide }
  else captureLoop pops samples.length 0 samples s

/-- A call of the capture callback, or a pop between two calls. -/
inductive Step (α : Type)
  | captured (transmitEnabled : Bool) (monitor : CaptureMonitor) (pops : ℕ → ℕ) (samples : List α)
  | pop

def step (s : Capture α) : Step α → Capture α
  | .captured transmitEnabled monitor pops samples =>
    s.onCapturedSamples transmitEnabled monitor pops samples
  | .pop => s.pop

/-- The samples that the step brings. -/
def Step.samples : Step α → List α
  | .captured _ _ _ samples => samples
  | .pop => []

/-- Capture is enabled. -/
def Step.Enabled : Step α → Prop
  | .captured transmitEnabled monitor _ _ => transmitEnabled = true ∨ monitor ≠ .off
  | .pop => True

/-- A run from some buffers on. -/
def run (buffers : CaptureBuffers α) (steps : List (Step α)) : Capture α :=
  steps.foldl step { buffers with }

/-- The samples in the array. -/
def leftover (buffers : CaptureBuffers α) : List α := buffers.assembly.toList.take buffers.offset

/-- The samples were framed: the offers are the blocks of the stream, the array holds its rest, and
the queue has what it was offered unless it was full. -/
structure Framed (s : Capture α) (samples : List α) (s' : Capture α) (offers : List (Offer α)) :
    Prop where
  leftover_eq : leftover s'.toCaptureBuffers =
    rest samplesPerFrame (leftover s.toCaptureBuffers ++ samples)
  offers_eq : s'.offers = s.offers ++ offers
  frames : offers.map (fun offer => offer.frame.toList) =
    blocks samplesPerFrame (leftover s.toCaptureBuffers ++ samples)
  refused : ∀ offer ∈ offers,
    offer.stored = false ↔ offer.waiting.length + 1 = captureQueueCapacity
  drops : s'.drops = s.drops + UInt64.ofNat (offers.countP fun offer => !offer.stored)
  queued : s'.popped ++ s'.queue.contents = s.popped ++ s.queue.contents ++
    (offers.filter Offer.stored).map Offer.frame

/-! ## Preservation -/

theorem length_leftover (buffers : CaptureBuffers α) :
    (leftover buffers).length = buffers.offset := by
  have h := buffers.offset_lt
  rw [leftover, List.length_take, Vector.length_toList]
  omega

theorem Framed.refl (s : Capture α) : Framed s [] s [] where
  leftover_eq := by
    rw [List.append_nil, rest_of_lt]
    rw [length_leftover]
    exact s.offset_lt
  offers_eq := (List.append_nil _).symm
  frames := by
    rw [List.append_nil, blocks_of_lt]
    · rfl
    · rw [length_leftover]
      exact s.offset_lt
  refused := nofun
  drops := (UInt64.add_zero _).symm
  queued := (List.append_nil _).symm

/-- The framing goes on where it was left. -/
theorem Framed.trans {s s' s'' : Capture α} {front back : List α} {offers offers' : List (Offer α)}
    (h : Framed s front s' offers) (h' : Framed s' back s'' offers') :
    Framed s (front ++ back) s'' (offers ++ offers') := by
  obtain ⟨hblocks, hrest⟩ := blocks_append (show 0 < samplesPerFrame by decide)
    (leftover s.toCaptureBuffers ++ front) back
  rw [← h.leftover_eq, List.append_assoc] at hblocks hrest
  constructor
  case leftover_eq => rw [h'.leftover_eq, hrest]
  case offers_eq => rw [h'.offers_eq, h.offers_eq, List.append_assoc]
  case frames => rw [List.map_append, h.frames, h'.frames, hblocks]
  case refused =>
    intro offer hoffer
    rcases List.mem_append.1 hoffer with hoffer | hoffer
    · exact h.refused offer hoffer
    · exact h'.refused offer hoffer
  case drops =>
    rw [h'.drops, h.drops, List.countP_append, UInt64.add_assoc, ← UInt64.ofNat_add]
  case queued =>
    rw [h'.queued, h.queued, List.filter_append, List.map_append, List.append_assoc]

theorem framed_pop (s : Capture α) : Framed s [] s.pop [] := by
  have hrefl := Framed.refl s
  unfold pop
  rcases s.queue.tryPop_cases with ⟨-, hpop⟩ | ⟨frame, hframe, hcontents⟩
  · rw [hpop]
    exact hrefl
  · have hpop : s.queue.tryPop = (some frame, s.queue.tryPop.2) := Prod.ext hframe rfl
    rw [hpop]
    refine ⟨hrefl.leftover_eq, hrefl.offers_eq, hrefl.frames, nofun, hrefl.drops, ?_⟩
    show (s.popped ++ [frame]) ++ s.queue.tryPop.2.contents = _
    rw [hcontents, List.append_assoc]
    exact (List.append_nil _).symm

theorem framed_pops (s : Capture α) (count : ℕ) : Framed s [] (pop^[count] s) [] := by
  induction count generalizing s with
  | zero => exact .refl s
  | succ count ih => exact (framed_pop s).trans (ih s.pop)

/-- The worker leaves the array alone. -/
theorem assembly_pops (s : Capture α) (count : ℕ) :
    (pop^[count] s).assembly = s.assembly ∧ (pop^[count] s).offset = s.offset := by
  induction count generalizing s with
  | zero => exact ⟨rfl, rfl⟩
  | succ count ih =>
    have hpop : s.pop.assembly = s.assembly ∧ s.pop.offset = s.offset := by
      unfold pop
      split <;> exact ⟨rfl, rfl⟩
    rw [Function.iterate_succ_apply, (ih s.pop).1, (ih s.pop).2]
    exact hpop

/-- What is behind the offset does not count. -/
theorem framed_copied {s : Capture α} {assembly : FrameSamples α}
    (h : assembly.toList.take s.offset = leftover s.toCaptureBuffers) :
    Framed s [] { s with assembly } [] where
  leftover_eq := h.trans (Framed.refl s).leftover_eq
  offers_eq := (Framed.refl s).offers_eq
  frames := (Framed.refl s).frames
  refused := nofun
  drops := (Framed.refl s).drops
  queued := (Framed.refl s).queued

/-- A span that does not fill the array. -/
theorem framed_partial {s : Capture α} {samples : List α} {offset : ℕ} {assembly : FrameSamples α}
    (hoffset : offset < samplesPerFrame) (hlength : s.offset + samples.length = offset)
    (hassembly : assembly.toList.take offset = leftover s.toCaptureBuffers ++ samples) :
    Framed s samples { s with assembly, offset, offset_lt := hoffset } [] := by
  have hshort : (leftover s.toCaptureBuffers ++ samples).length < samplesPerFrame := by
    rw [List.length_append, length_leftover, hlength]
    exact hoffset
  have hrefl := Framed.refl s
  refine ⟨?_, hrefl.offers_eq, ?_, nofun, hrefl.drops, hrefl.queued⟩
  · rw [rest_of_lt hshort]
    exact hassembly
  · rw [blocks_of_lt hshort]
    rfl

/-- The offer of a full array. -/
theorem framed_offer {s : Capture α} {samples : List α}
    (hassembly : s.assembly.toList = leftover s.toCaptureBuffers ++ samples) :
    ∃ offer : Offer α,
      Framed s samples { s.offer with offset := 0, offset_lt := by decide } [offer] := by
  have hlength : (leftover s.toCaptureBuffers ++ samples).length = samplesPerFrame := by
    rw [← hassembly, Vector.length_toList]
  obtain ⟨hblocks, hrest⟩ := blocks_of_length hlength (by decide)
  refine ⟨⟨s.assembly, s.queue.contents, (s.queue.tryPush s.assembly).1⟩, ?_⟩
  constructor
  case leftover_eq =>
    rw [hrest]
    exact List.take_zero
  case offers_eq => rfl
  case frames =>
    rw [hblocks, ← hassembly]
    rfl
  case refused =>
    intro offer hoffer
    rw [List.mem_singleton.1 hoffer]
    rcases s.queue.tryPush_cases s.assembly with ⟨hfull, hpush⟩ | ⟨hroom, hpush, -⟩
    · rw [hpush]
      exact iff_of_true rfl hfull
    · rw [hpush]
      exact iff_of_false nofun hroom.ne
  case drops =>
    show (if (s.queue.tryPush s.assembly).1 then s.drops else s.drops + 1) = _
    cases (s.queue.tryPush s.assembly).1
    · rfl
    · exact (UInt64.add_zero _).symm
  case queued =>
    show s.popped ++ (s.queue.tryPush s.assembly).2.contents = _
    rcases s.queue.tryPush_cases s.assembly with ⟨-, hpush⟩ | ⟨-, hpush, hcontents⟩
    · rw [hpush]
      exact (List.append_nil _).symm
    · rw [hpush, hcontents, List.append_assoc]
      rfl

theorem framed_captureLoop (pops : ℕ → ℕ) {fuel i : ℕ} {samples : List α} {s : Capture α}
    (hfuel : samples.length ≤ fuel) :
    ∃ offers, Framed s samples (captureLoop pops fuel i samples s) offers := by
  induction fuel generalizing i samples s with
  | zero =>
    obtain rfl : samples = [] := List.length_eq_zero_iff.1 (Nat.le_zero.1 hfuel)
    exact ⟨[], .refl s⟩
  | succ fuel ih =>
    rw [captureLoop]
    split_ifs with hempty
    · rw [List.isEmpty_iff.1 hempty]
      exact ⟨[], .refl s⟩
    dsimp only
    have hle := s.copied_le samples
    have hlt := s.offset_lt
    have hne : samples.length ≠ 0 := fun h => hempty (List.isEmpty_iff_length_eq_zero.2 h)
    set count := min (samplesPerFrame - s.offset) samples.length with hcount
    set assembly := copyN samples count s.assembly s.offset with hassembly
    have htake : assembly.toList.take (s.offset + count) =
        leftover s.toCaptureBuffers ++ samples.take count :=
      take_copyN s.assembly (min_le_right _ _) hle
    have hdrop : (samples.drop count).length ≤ fuel := by
      rw [List.length_drop]
      omega
    split_ifs with hfull
    · -- the span ends before the array is full
      have hfront := framed_partial (s := s) (hle.lt_of_ne hfull)
        (show s.offset + (samples.take count).length = _ by rw [List.length_take]; omega) htake
      obtain ⟨offers, hback⟩ := ih (i := i) hdrop
      exact ⟨_, List.take_append_drop count samples ▸ hfront.trans hback⟩
    · -- the array is full: the worker pops, and the frame is offered
      have hcopied : Framed s [] { s with assembly } [] :=
        framed_copied (by
          have hfront := congrArg (List.take s.offset) htake
          rwa [List.take_take, min_eq_left (Nat.le_add_right _ _),
            List.take_left' (length_leftover s.toCaptureBuffers)] at hfront)
      have hpopped := hcopied.trans (framed_pops { s with assembly } (pops i))
      have hleft : leftover (pop^[pops i] { s with assembly }).toCaptureBuffers =
          leftover s.toCaptureBuffers :=
        hpopped.leftover_eq.trans (Framed.refl s).leftover_eq.symm
      obtain ⟨offer, hoffer⟩ := framed_offer (s := pop^[pops i] { s with assembly })
        (show _ = _ ++ samples.take count by
          rw [(assembly_pops _ _).1, hleft, ← htake, List.take_of_length_le]
          rw [Vector.length_toList, not_not.1 hfull])
      obtain ⟨offers, hback⟩ := ih (i := i + 1) hdrop
      have hall : Framed s (samples.take count ++ samples.drop count) _ _ :=
        (hpopped.trans hoffer).trans hback
      rw [List.take_append_drop] at hall
      exact ⟨_, hall⟩

/-- The callback frames its samples while capture is enabled. -/
theorem framed_step (s : Capture α) {step : Step α} (h : step.Enabled) :
    ∃ offers, Framed s step.samples (s.step step) offers := by
  cases step with
  | pop => exact ⟨[], framed_pop s⟩
  | captured transmitEnabled monitor pops samples =>
    have hnot : ¬ (!transmitEnabled && decide (monitor = .off)) = true := by
      rcases h with rfl | h
      · exact nofun
      · simp [h]
    show ∃ offers, Framed s samples (s.onCapturedSamples transmitEnabled monitor pops samples) offers
    rw [onCapturedSamples, if_neg hnot]
    exact framed_captureLoop pops (le_refl _)

/-- So does a run. -/
theorem framed_foldl (s : Capture α) {steps : List (Step α)} (h : ∀ step ∈ steps, step.Enabled) :
    ∃ offers, Framed s (steps.flatMap Step.samples) (steps.foldl step s) offers := by
  induction steps generalizing s with
  | nil => exact ⟨[], .refl s⟩
  | cons step steps ih =>
    obtain ⟨hstep, hsteps⟩ := List.forall_mem_cons.1 h
    obtain ⟨front, hfront⟩ := framed_step s hstep
    obtain ⟨back, hback⟩ := ih (s.step step) hsteps
    exact ⟨front ++ back, hfront.trans hback⟩

/-- **The framing does not depend on the spans.** Two runs with the same samples offer the same
frames, namely the blocks of the stream, and leave its rest in the array. In each of them an offer
is refused exactly when the queue is full, the drops count the refused frames, and the queue gets
all others in order. -/
theorem capture_framing (buffers : CaptureBuffers α) {steps steps' : List (Step α)}
    (h : ∀ step ∈ steps, step.Enabled) (h' : ∀ step ∈ steps', step.Enabled)
    (hsamples : steps.flatMap Step.samples = steps'.flatMap Step.samples) :
    (run buffers steps).offers.map Offer.frame = (run buffers steps').offers.map Offer.frame ∧
      Framed { buffers with } (steps.flatMap Step.samples) (run buffers steps)
        (run buffers steps).offers ∧
      (run buffers steps).offset =
        (buffers.offset + (steps.flatMap Step.samples).length) % samplesPerFrame := by
  obtain ⟨offers, hframed⟩ := framed_foldl { buffers with } h
  obtain ⟨offers', hframed'⟩ := framed_foldl { buffers with } h'
  obtain rfl : (run buffers steps).offers = offers := hframed.offers_eq
  obtain rfl : (run buffers steps').offers = offers' := hframed'.offers_eq
  refine ⟨?_, hframed, ?_⟩
  · have hlists := hframed.frames.trans ((congrArg (fun samples =>
      blocks samplesPerFrame (leftover buffers ++ samples)) hsamples).trans hframed'.frames.symm)
    refine List.map_injective_iff.2 (fun a b hab => Vector.toList_inj.1 hab) ?_
    rwa [List.map_map, List.map_map]
  · have hlength := congrArg List.length hframed.leftover_eq
    rw [length_leftover, length_rest, List.length_append, length_leftover] at hlength
    exact hlength

theorem captureQueueCapacity_pos : 0 < captureQueueCapacity := by decide

/-- Buffers without samples. -/
def emptyBuffers (zero : α) : CaptureBuffers α where
  assembly := .replicate samplesPerFrame zero
  queue := @SpscRing.new _ _ ⟨.replicate samplesPerFrame zero⟩ captureQueueCapacity_pos
  offset_lt := by decide

/-- A thousand samples at once, or in two spans with a pop between them. -/
theorem capture_framing_twoSpans :
    let once : List (Step ℕ) := [.captured true .off (fun _ => 0) (List.replicate 1000 7)]
    let twice : List (Step ℕ) := [.captured true .off (fun _ => 0) (List.replicate 600 7), .pop,
      .captured true .off (fun _ => 2) (List.replicate 400 7)]
    (run (emptyBuffers 0) once).offers.map Offer.frame =
        (run (emptyBuffers 0) twice).offers.map Offer.frame ∧
      Framed { emptyBuffers 0 with } (once.flatMap Step.samples) (run (emptyBuffers 0) once)
        (run (emptyBuffers 0) once).offers ∧
      (run (emptyBuffers 0) once).offset = ((emptyBuffers 0).offset +
        (once.flatMap Step.samples).length) % samplesPerFrame := by
  intro once twice
  have honce : ∀ step ∈ once, step.Enabled := fun step hstep => by
    rw [List.mem_singleton.1 hstep]
    exact .inl rfl
  have htwice : ∀ step ∈ twice, step.Enabled := fun step hstep => by
    simp only [twice, List.mem_cons, List.not_mem_nil, or_false] at hstep
    rcases hstep with rfl | rfl | rfl
    · exact .inl rfl
    · trivial
    · exact .inl rfl
  have hsamples : once.flatMap Step.samples = twice.flatMap Step.samples := by
    show List.replicate 1000 7 ++ [] =
      List.replicate 600 7 ++ ([] ++ (List.replicate 400 7 ++ []))
    rw [List.nil_append, List.append_nil, List.append_nil, List.replicate_append_replicate]
  exact capture_framing (emptyBuffers 0) honce htwice hsamples

/-! ## The transmit path -/

/-- The buffers are those of the transmit path, whose samples are marked. -/
structure Represents (s : Capture (CapturedSample α)) (path : AudioPath α) : Prop where
  assembly : leftover s.toCaptureBuffers = path.captureAssembly
  queue : s.queue.contents.map Vector.toList = path.captureQueue.contents

theorem transmitState_assembled (path : AudioPath α) (assembly : PcmFrame α) :
    (path.assembled assembly).transmitState = path.transmitState := by
  unfold AudioPath.assembled
  split_ifs <;> rfl

/-- A full array is pushed in both, or refused in both. -/
theorem Represents.offer {s : Capture (CapturedSample α)} {path : AudioPath α}
    (hqueue : s.queue.contents.map Vector.toList = path.captureQueue.contents) :
    Represents { s.offer with offset := 0, offset_lt := by decide }
      (path.assembled s.assembly.toList) := by
  have hfull : s.assembly.toList.length = samplesPerFrame := Vector.length_toList
  have hlength : s.queue.contents.length = path.captureQueue.contents.length := by
    rw [← hqueue, List.length_map]
  unfold AudioPath.assembled
  rw [if_neg (not_not.2 hfull)]
  refine ⟨List.take_zero, ?_⟩
  show (s.queue.tryPush s.assembly).2.contents.map Vector.toList =
    (path.captureQueue.tryPush s.assembly.toList).2.contents
  rcases s.queue.tryPush_cases s.assembly with ⟨hfull, hpush⟩ | ⟨hroom, -, hcontents⟩ <;>
    rcases path.captureQueue.tryPush_cases s.assembly.toList with
      ⟨hfull', hpush'⟩ | ⟨hroom', -, hcontents'⟩
  · rw [hpush, hpush']
    exact hqueue
  · omega
  · omega
  · rw [hcontents, hcontents', List.map_append, hqueue]
    rfl

/-- **The transmit path sees this callback**, when the worker does not run during the call. -/
theorem Represents.captureLoop {fuel i : ℕ} {samples : List α} {s : Capture (CapturedSample α)}
    {path : AudioPath α} {state : TransmitStateChange} (h : Represents s path)
    (hstate : path.transmitState = state) :
    Represents
      (captureLoop (fun _ => 0) fuel i (samples.map fun sample => { sample, state }) s)
      (path.captureLoop fuel samples) := by
  induction fuel generalizing i samples s path with
  | zero => exact h
  | succ fuel ih =>
    rw [Capture.captureLoop, AudioPath.captureLoop, List.isEmpty_map]
    split_ifs with hempty
    · exact h
    dsimp only
    set marked := samples.map fun sample : α => ({ sample, state } : CapturedSample α) with hmarked
    have hcount : min (samplesPerFrame - path.captureAssembly.length) samples.length =
        min (samplesPerFrame - s.offset) marked.length := by
      rw [← h.assembly, length_leftover, List.length_map]
    have hle := s.copied_le marked
    have hdrop : ∀ n, marked.drop n = (samples.drop n).map fun sample => { sample, state } :=
      fun n => List.map_drop.symm
    have hcopied : ∀ n, ((samples.take n).map fun sample =>
        ({ sample, state } : CapturedSample α)) = marked.take n := fun n => List.map_take
    rw [hcount, hstate, hdrop, hcopied, ← h.assembly]
    have htake := take_copyN s.assembly (show _ ≤ marked.length from min_le_right _ _) hle
    have hlength : (leftover s.toCaptureBuffers ++
        marked.take (min (samplesPerFrame - s.offset) marked.length)).length =
          s.offset + min (samplesPerFrame - s.offset) marked.length := by
      rw [List.length_append, length_leftover, List.length_take, min_eq_left (min_le_right _ _)]
    split_ifs with hfull
    · -- the array is not full
      refine ih ⟨?_, ?_⟩ ((transmitState_assembled _ _).trans hstate)
      · rw [AudioPath.assembled, if_pos (hlength ▸ hfull)]
        exact htake
      · rw [AudioPath.assembled, if_pos (hlength ▸ hfull)]
        exact h.queue
    · -- the array is full, and is offered
      refine ih ?_ ((transmitState_assembled _ _).trans hstate)
      have hwhole := htake
      rw [List.take_of_length_le (by rw [Vector.length_toList, not_not.1 hfull])] at hwhole
      rw [leftover, ← hwhole]
      exact Represents.offer (s := { s with assembly := _ }) h.queue

theorem Represents.onCapturedSamples {samples : List α} {s : Capture (CapturedSample α)}
    {path : AudioPath α} (h : Represents s path) :
    Represents
      (s.onCapturedSamples path.transmitState.enabled path.captureMonitor (fun _ => 0)
        (samples.map fun sample => { sample, state := path.transmitState }))
      (path.onCapturedSamples samples) := by
  unfold Capture.onCapturedSamples AudioPath.onCapturedSamples
  split_ifs
  · exact ⟨List.take_zero, h.queue⟩
  · rw [List.length_map]
    exact h.captureLoop rfl

end Capture

end TsCli
