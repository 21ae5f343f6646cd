import TsCli.Audio.TransmitPath

/-!
# Muted audio stays local

The capture queue is cleared when the worker adopts a transmit state, and the network thread drops
frames of another revision. The assembly buffer is neither cleared nor marked: samples captured
while transmission was off, or under an older revision, are completed to a frame of the new one. In
a run in which no callback adds to such a buffer, every sample that is sent was captured while
transmission was on, under the revision that the network thread had consumed.
-/

namespace TsCli

namespace SpscRing

variable {α : Type} {capacity : ℕ} {r : SpscRing α capacity} {x value : α}

theorem mem_contents_tryPush (h : x ∈ (r.tryPush value).2.contents) :
    x ∈ r.contents ∨ x = value := by
  rcases r.tryPush_cases value with ⟨-, hpush⟩ | ⟨-, -, hpush⟩
  · rw [hpush] at h
    exact .inl h
  · rw [hpush] at h
    simpa using h

theorem contents_of_tryPop {r' : SpscRing α capacity} (h : r.tryPop = (some value, r')) :
    r.contents = value :: r'.contents := by
  rcases r.tryPop_cases with ⟨-, hpop⟩ | ⟨value', hvalue, hcontents⟩
  · rw [hpop] at h
    cases h
  · rw [h] at hvalue hcontents
    cases hvalue
    exact hcontents

end SpscRing

namespace AudioPath

variable {α : Type} {s : AudioPath α}

/-- Every sample of the frame was captured under the state. -/
def Under (state : TransmitStateChange) (pcm : PcmFrame α) : Prop := ∀ x ∈ pcm, x.state = state

@[simp] theorem under_nil (state : TransmitStateChange) : Under state ([] : PcmFrame α) := by
  simp [Under]

/-- Where the samples in the queues and on the wire were captured. -/
structure Sourced (s : AudioPath α) : Prop where
  captured : s.workerState.revision = s.transmitState.revision → s.transmitState.enabled = true →
    ∀ pcm ∈ s.captureQueue.contents, Under s.transmitState pcm
  outgoing : ∀ frame ∈ s.outgoingQueue.contents, Under ⟨true, frame.transmitRevision⟩ frame.samples
  sent : ∀ voice ∈ s.sent, Under ⟨true, voice.networkRevision⟩ voice.frame.samples

theorem sourced_initial : Sourced ({} : AudioPath α) where
  captured := by simp
  outgoing := by simp
  sent := by simp

/-! ## One lemma for each step -/

theorem Sourced.setTransmitEnabled (h : Sourced s) (hworker : WorkerBehind s) (enabled : Bool) :
    Sourced (s.setTransmitEnabled enabled) := by
  unfold AudioPath.setTransmitEnabled
  split_ifs with hsame
  · exact h
  · have hlt : s.workerState.revision < s.transmitState.revision + 1 := Nat.lt_succ_of_le hworker.le
    exact { h with captured := fun heq => absurd heq hlt.ne }

/-- The condition on a callback: it adds to no sample of another state while transmission is on. -/
def FreshAssembly (s : AudioPath α) : Step α → Prop
  | .onCapturedSamples _ => s.transmitState.enabled = true → Under s.transmitState s.captureAssembly
  | _ => True

theorem Sourced.assembled (h : Sourced s) {assembly : PcmFrame α}
    (hfresh : s.transmitState.enabled = true → Under s.transmitState assembly) :
    Sourced (s.assembled assembly) ∧ (s.assembled assembly).transmitState = s.transmitState ∧
      (s.transmitState.enabled = true →
        Under s.transmitState (s.assembled assembly).captureAssembly) := by
  unfold AudioPath.assembled
  split_ifs with hfull
  · exact ⟨{ h with }, rfl, hfresh⟩
  · refine ⟨{ h with captured := fun heq henabled pcm hpcm => ?_ }, rfl, fun _ => under_nil _⟩
    rcases SpscRing.mem_contents_tryPush hpcm with hpcm | rfl
    · exact h.captured heq henabled pcm hpcm
    · exact hfresh henabled

theorem Sourced.captureLoop (h : Sourced s)
    (hfresh : s.transmitState.enabled = true → Under s.transmitState s.captureAssembly)
    (fuel : ℕ) (samples : List α) : Sourced (captureLoop fuel samples s) := by
  induction fuel generalizing s samples with
  | zero => exact h
  | succ fuel ih =>
    unfold AudioPath.captureLoop
    dsimp only
    split_ifs
    · exact h
    · have hcopied : s.transmitState.enabled = true →
          Under s.transmitState (s.captureAssembly ++
            (samples.take (min (samplesPerFrame - s.captureAssembly.length) samples.length)).map
              fun sample => { sample, state := s.transmitState }) := by
        intro henabled x hx
        rcases List.mem_append.1 hx with hx | hx
        · exact hfresh henabled x hx
        · obtain ⟨sample, -, rfl⟩ := List.mem_map.1 hx
          rfl
      obtain ⟨hnext, hstate, hnextFresh⟩ := h.assembled hcopied
      refine ih hnext ?_ _
      rw [hstate]
      exact hnextFresh

theorem Sourced.onCapturedSamples (h : Sourced s)
    (hfresh : s.transmitState.enabled = true → Under s.transmitState s.captureAssembly)
    (samples : List α) : Sourced (s.onCapturedSamples samples) := by
  unfold AudioPath.onCapturedSamples
  split_ifs
  · exact { h with }
  · exact h.captureLoop hfresh _ _

theorem Sourced.queueTalkEnd (h : Sourced s) (revision : ℕ) : Sourced (s.queueTalkEnd revision) := by
  refine { h with outgoing := fun frame hframe => ?_ }
  rcases SpscRing.mem_contents_tryPush hframe with hframe | rfl
  · exact h.outgoing frame hframe
  · exact under_nil _

theorem Sourced.adoptState (h : Sourced s) : Sourced s.adoptState := by
  have hadopted : Sourced { s with
      workerState := s.transmitState
      workerMonitor := s.captureMonitor
      gateActive := false
      captureQueue := s.captureQueue.clear
      talkStartRemaining := 0 } := by
    refine { h with captured := fun _ _ pcm hpcm => ?_ }
    rw [SpscRing.contents_clear] at hpcm
    simp at hpcm
  unfold AudioPath.adoptState
  dsimp only
  split_ifs
  · exact hadopted.queueTalkEnd _
  · exact hadopted

theorem Sourced.closeBurst (h : Sourced s) : Sourced s.closeBurst := by
  unfold AudioPath.closeBurst
  split_ifs
  · exact { h.queueTalkEnd s.workerState.revision with }
  · exact { h with }

theorem Sourced.openBurst (h : Sourced s) : Sourced s.openBurst := { h with }

/-- A frame is encoded under the state that the worker has adopted. -/
theorem Sourced.transmit (h : Sourced s) {pcm : PcmFrame α}
    (hpcm : s.workerState.enabled = true → Under s.workerState pcm) : Sourced (s.transmit pcm) := by
  unfold AudioPath.transmit
  cases henabled : s.workerState.enabled with
  | false =>
    simp only [henabled, Bool.not_false, if_true]
    exact { h with }
  | true =>
    simp only [henabled, Bool.not_true, Bool.false_eq_true, if_false]
    refine { h with outgoing := fun frame hframe => ?_ }
    rcases SpscRing.mem_contents_tryPush hframe with hframe | rfl
    · exact h.outgoing frame hframe
    · show Under ⟨true, s.workerState.revision⟩ pcm
      rw [← henabled]
      exact hpcm henabled

theorem Sourced.processFrame (h : Sourced s) {pcm : PcmFrame α}
    (hpcm : s.workerState.enabled = true → Under s.workerState pcm) (shouldTransmit : Bool) :
    Sourced (s.processFrame pcm shouldTransmit) := by
  have hgate : Sourced { s with gateActive := shouldTransmit } := { h with }
  unfold AudioPath.processFrame
  dsimp only
  split_ifs
  · exact hgate.closeBurst
  · exact hgate
  · exact hgate.transmit hpcm
  · exact hgate.openBurst.transmit hpcm

theorem Sourced.processFrames (decisions : ℕ → Bool) (fuel i : ℕ) (h : Sourced s)
    (hadopted : s.workerState = s.transmitState) :
    Sourced (processFrames decisions fuel i s) := by
  induction fuel generalizing i s with
  | zero => exact h
  | succ fuel ih =>
    unfold AudioPath.processFrames
    cases hpop : s.captureQueue.tryPop with
    | mk popped captureQueue =>
      cases popped with
      | none => exact h
      | some pcm =>
        have hcontents := SpscRing.contents_of_tryPop hpop
        have hpopped : Sourced { s with captureQueue } :=
          { h with captured := fun heq henabled frame hframe =>
              h.captured heq henabled frame (hcontents ▸ List.mem_cons_of_mem _ hframe) }
        have hpcm : s.workerState.enabled = true → Under s.workerState pcm := by
          rw [hadopted]
          intro henabled
          exact h.captured (congrArg _ hadopted) henabled pcm (hcontents ▸ List.mem_cons_self)
        obtain ⟨hstate, hworker⟩ :=
          states_processFrame { s with captureQueue } pcm (decisions i)
        refine ih (i + 1) (hpopped.processFrame hpcm (decisions i)) ?_
        rw [hworker, hstate]
        exact hadopted

theorem Sourced.processCapture (h : Sourced s) (hworker : WorkerBehind s) (decisions : ℕ → Bool) :
    Sourced (s.processCapture decisions) := by
  have hadopted := workerState_adopted hworker
  have hstart : Sourced (if s.StateChanged then s.adoptState else s) := by
    split_ifs
    · exact h.adoptState
    · exact h
  unfold AudioPath.processCapture
  dsimp only
  split_ifs at hstart hadopted ⊢
  all_goals first
    | exact hstart
    | exact hstart.processFrames decisions _ _ hadopted

theorem Sourced.takeTransmitStateChange (h : Sourced s) : Sourced s.takeTransmitStateChange := by
  unfold AudioPath.takeTransmitStateChange
  split_ifs
  · exact h
  · exact { h with }

theorem Sourced.sendNext (h : Sourced s) : Sourced s.sendNext := by
  unfold AudioPath.sendNext
  cases hpop : s.outgoingQueue.tryPop with
  | mk popped outgoingQueue =>
    cases popped with
    | none => exact h
    | some frame =>
      have hcontents := SpscRing.contents_of_tryPop hpop
      have hpopped : Sourced { s with outgoingQueue } :=
        { h with outgoing := fun other hother =>
            h.outgoing other (hcontents ▸ List.mem_cons_of_mem _ hother) }
      dsimp only
      split_ifs with hrevision hmuted
      · exact hpopped
      · exact hpopped
      · refine { hpopped with sent := fun voice hvoice => ?_ }
        rcases List.mem_append.1 hvoice with hvoice | hvoice
        · exact h.sent voice hvoice
        · rw [List.mem_singleton.1 hvoice]
          show Under ⟨true, s.audioTransmitRevision⟩ frame.samples
          rw [← not_not.1 hrevision]
          exact h.outgoing frame (hcontents ▸ List.mem_cons_self)

theorem Sourced.processAudio (h : Sourced s) : Sourced s.processAudio := by
  unfold AudioPath.processAudio
  exact Function.Iterate.rec Sourced h.takeTransmitStateChange (fun _ h => h.sendNext) _

theorem Sourced.step (h : Sourced s) (hworker : WorkerBehind s) (step : Step α)
    (hfresh : FreshAssembly s step) : Sourced (s.step step) := by
  cases step with
  | setTransmitEnabled enabled => exact h.setTransmitEnabled hworker enabled
  | setCaptureMonitor monitor => exact { h with }
  | onCapturedSamples samples => exact h.onCapturedSamples hfresh samples
  | processCapture decisions => exact h.processCapture hworker decisions
  | takeTransmitStateChange => exact h.takeTransmitStateChange
  | sendNext => exact h.sendNext
  | processAudio => exact h.processAudio

/-! ## Runs -/

/-- Half a frame is captured for the level meter before transmission is switched on, and the other
half behind it. -/
def halfMuted : List (Step Unit) :=
  [.setCaptureMonitor .level, .onCapturedSamples (List.replicate 480 ()),
    .setTransmitEnabled true, .processCapture fun _ => true, .processAudio,
    .onCapturedSamples (List.replicate 480 ()), .processCapture fun _ => true, .processAudio]

theorem halfMuted_sends : ((run halfMuted).sent.all fun voice =>
    voice.frame.samples.all fun x => x.state.enabled) = false := by
  decide +kernel

/-- A frame that is captured after transmission was switched on. -/
def unmuted : List (Step Unit) :=
  [.setTransmitEnabled true, .processCapture fun _ => true, .processAudio,
    .onCapturedSamples (List.replicate 960 ()), .processCapture fun _ => true, .processAudio]

end AudioPath

end TsCli
