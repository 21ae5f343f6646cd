import TsCli.Audio.SpscRing
import TsCli.Lib.Runs

/-!
# From the microphone to the network

Four threads share the transmit path. The user interface switches transmission and the capture
monitor, a capture callback assembles samples into frames, the worker encodes frames, and the
network thread sends them. Each call of one of them is a step of the model.

Two marks that the code does not have follow the data: a sample carries the transmit state under
which its callback ran, and an encoded frame the talk burst that it belongs to. No definition
branches on them. An encoded frame carries the captured frame that it encodes instead of Opus
bytes, and what the capture gate decides about a frame is an input of the worker's step.
-/

namespace TsCli

/-- `TransmitStateChange`. -/
structure TransmitStateChange where
  enabled : Bool := false
  revision : ℕ := 0
  deriving DecidableEq, Repr

/-- `CaptureMonitor`. -/
inductive CaptureMonitor
  | off
  | level
  | loopback
  deriving DecidableEq, Repr

/-- A sample, marked with the transmit state at its capture. -/
structure CapturedSample (α : Type) where
  sample : α
  state : TransmitStateChange
  deriving DecidableEq, Repr

/-- `PcmFrame`. -/
abbrev PcmFrame (α : Type) := List (CapturedSample α)

/-- `EncodedFrame`, marked with its talk burst. -/
structure EncodedFrame (α : Type) where
  samples : PcmFrame α := []
  transmitRevision : ℕ := 0
  talkStart : Bool := false
  talkEnd : Bool := false
  burst : ℕ := 0
  deriving DecidableEq, Repr, Inhabited

/-- A call of `SendVoice`, with the revision that the network thread had consumed. -/
structure SentVoice (α : Type) where
  frame : EncodedFrame α
  networkRevision : ℕ
  deriving DecidableEq, Repr

def samplesPerFrame : ℕ := 960
def captureQueueCapacity : ℕ := 16
def outgoingQueueCapacity : ℕ := 16
def talkStartPackets : ℕ := 5

/-- What the four threads share, and what the worker and the network thread keep. -/
structure AudioPath (α : Type) where
  transmitState : TransmitStateChange := { revision := 1 }
  captureMonitor : CaptureMonitor := .off
  /-- The samples in `m_CaptureAssembly` up to `m_CaptureAssemblyOffset`. -/
  captureAssembly : PcmFrame α := []
  captureQueue : SpscRing (PcmFrame α) captureQueueCapacity := .new (by decide)
  outgoingQueue : SpscRing (EncodedFrame α) outgoingQueueCapacity := .new (by decide)
  networkTransmitRevision : ℕ := 0
  workerState : TransmitStateChange := {}
  workerMonitor : CaptureMonitor := .off
  /-- `gate.Active()`. -/
  gateActive : Bool := false
  talkStartRemaining : ℕ := 0
  /-- The number of the current talk burst. -/
  burst : ℕ := 0
  audioTransmitEnabled : Bool := false
  audioTransmitRevision : ℕ := 0
  sent : List (SentVoice α) := []

namespace AudioPath

variable {α : Type} (s : AudioPath α)

/-! ## The user interface -/

/-- `AudioEngine::SetTransmitEnabled`. -/
def setTransmitEnabled (enabled : Bool) : AudioPath α :=
  if s.transmitState.enabled = enabled then s
  else { s with transmitState := { enabled, revision := s.transmitState.revision + 1 } }

/-- `AudioEngine::SetCaptureMonitor`. -/
def setCaptureMonitor (monitor : CaptureMonitor) : AudioPath α :=
  { s with captureMonitor := monitor }

/-! ## The capture callback -/

/-- `OnCapturedSamples` behind a copy: a full frame goes to the worker. -/
def assembled (assembly : PcmFrame α) : AudioPath α :=
  if assembly.length ≠ samplesPerFrame then { s with captureAssembly := assembly }
  else
    { s with
      captureQueue := (s.captureQueue.tryPush assembly).2
      captureAssembly := [] }

/-- The loop of `OnCapturedSamples` over the samples that are not copied yet. -/
def captureLoop : ℕ → List α → AudioPath α → AudioPath α
  | 0, _, s => s
  | fuel + 1, samples, s =>
    if samples.isEmpty then s
    else
      let remaining := samplesPerFrame - s.captureAssembly.length
      let count := min remaining samples.length
      let copied := (samples.take count).map fun sample => { sample, state := s.transmitState }
      captureLoop fuel (samples.drop count) (s.assembled (s.captureAssembly ++ copied))

/-- `AudioEngine::OnCapturedSamples`. Every pass of its loop copies a sample or more. -/
def onCapturedSamples (samples : List α) : AudioPath α :=
  if !s.transmitState.enabled && s.captureMonitor = .off then { s with captureAssembly := [] }
  else captureLoop samples.length samples s

/-! ## The worker -/

/-- `AudioEngine::QueueTalkEnd`. -/
def queueTalkEnd (transmitRevision : ℕ) : AudioPath α :=
  let last : EncodedFrame α := { transmitRevision, talkEnd := true }
  { s with outgoingQueue := (s.outgoingQueue.tryPush last).2 }

/-- `ProcessCapture` when the transmit revision or the monitor has changed. -/
def adoptState : AudioPath α :=
  let wasTalking := s.gateActive
  let wasTransmitting := s.workerState.enabled
  let s := { s with
    workerState := s.transmitState
    workerMonitor := s.captureMonitor
    gateActive := false
    captureQueue := s.captureQueue.clear
    talkStartRemaining := 0 }
  if wasTalking && wasTransmitting then s.queueTalkEnd s.workerState.revision else s

/-- `ProcessCapture` when the gate closes. -/
def closeBurst : AudioPath α :=
  let s := if s.workerState.enabled then s.queueTalkEnd s.workerState.revision else s
  { s with talkStartRemaining := 0 }

/-- `ProcessCapture` when the gate opens. -/
def openBurst : AudioPath α :=
  { s with talkStartRemaining := talkStartPackets, burst := s.burst + 1 }

/-- The frame that `ProcessCapture` encodes. -/
def encoded (pcm : PcmFrame α) : EncodedFrame α where
  samples := pcm
  transmitRevision := s.workerState.revision
  talkStart := s.talkStartRemaining ≠ 0
  burst := s.burst

/-- `ProcessCapture` for a frame while the gate is open. -/
def transmit (pcm : PcmFrame α) : AudioPath α :=
  let encoded := s.encoded pcm
  let s := { s with talkStartRemaining := s.talkStartRemaining - 1 }
  if !s.workerState.enabled then s
  else { s with outgoingQueue := (s.outgoingQueue.tryPush encoded).2 }

/-- The loop body of `ProcessCapture` for a frame, with the decision of the gate. -/
def processFrame (pcm : PcmFrame α) (shouldTransmit : Bool) : AudioPath α :=
  let wasTalking := s.gateActive
  let s := { s with gateActive := shouldTransmit }
  if !shouldTransmit then
    if wasTalking then s.closeBurst else s
  else
    let s := if wasTalking then s else s.openBurst
    s.transmit pcm

/-- The loop of `ProcessCapture`; `decisions` are those of the gate, in the order of the frames. -/
def processFrames (decisions : ℕ → Bool) : ℕ → ℕ → AudioPath α → AudioPath α
  | 0, _, s => s
  | fuel + 1, i, s =>
    match s.captureQueue.tryPop with
    | (none, _) => s
    | (some pcm, captureQueue) =>
      processFrames decisions fuel (i + 1) ({ s with captureQueue }.processFrame pcm (decisions i))

/-- Whether `ProcessCapture` has a change to adopt. -/
def StateChanged : Prop :=
  s.transmitState.revision ≠ s.workerState.revision ∨ s.captureMonitor ≠ s.workerMonitor

instance : Decidable s.StateChanged := inferInstanceAs (Decidable (_ ∨ _))

/-- `AudioEngine::ProcessCapture`. -/
def processCapture (decisions : ℕ → Bool) : AudioPath α :=
  let s := if s.StateChanged then s.adoptState else s
  if !s.workerState.enabled && s.workerMonitor = .off then s
  else processFrames decisions captureQueueCapacity 0 s

/-! ## The network thread -/

/-- `TakeTransmitStateChange`, and what `ProcessAudio` does with its result. -/
def takeTransmitStateChange : AudioPath α :=
  if s.transmitState.revision = s.networkTransmitRevision then s
  else { s with
    networkTransmitRevision := s.transmitState.revision
    audioTransmitEnabled := s.transmitState.enabled
    audioTransmitRevision := s.transmitState.revision }

/-- The loop of `ProcessAudio` for one frame. -/
def sendNext : AudioPath α :=
  match s.outgoingQueue.tryPop with
  | (none, _) => s
  | (some frame, outgoingQueue) =>
    let s := { s with outgoingQueue }
    if frame.transmitRevision ≠ s.audioTransmitRevision then s
    else if !s.audioTransmitEnabled && !frame.talkEnd then s
    else { s with sent := s.sent ++ [{ frame, networkRevision := s.audioTransmitRevision }] }

/-- `NetworkRuntime::ProcessAudio`. -/
def processAudio : AudioPath α := sendNext^[outgoingQueueCapacity] s.takeTransmitStateChange

/-! ## Steps -/

/-- A step of one of the threads. The network thread takes its steps together or one by one. -/
inductive Step (α : Type)
  | setTransmitEnabled (enabled : Bool)
  | setCaptureMonitor (monitor : CaptureMonitor)
  | onCapturedSamples (samples : List α)
  | processCapture (decisions : ℕ → Bool)
  | takeTransmitStateChange
  | sendNext
  | processAudio

/-- The step function. -/
def step (s : AudioPath α) : Step α → AudioPath α
  | .setTransmitEnabled enabled => s.setTransmitEnabled enabled
  | .setCaptureMonitor monitor => s.setCaptureMonitor monitor
  | .onCapturedSamples samples => s.onCapturedSamples samples
  | .processCapture decisions => s.processCapture decisions
  | .takeTransmitStateChange => s.takeTransmitStateChange
  | .sendNext => s.sendNext
  | .processAudio => s.processAudio

/-- A run from the start of the engine. -/
def run (steps : List (Step α)) : AudioPath α := steps.foldl step {}

/-! ## The worker's copy of the transmit state -/

/-- The steps of the capture callback do not touch the transmit state or its copy. -/
theorem states_captureLoop (fuel : ℕ) (samples : List α) (s : AudioPath α) :
    (captureLoop fuel samples s).transmitState = s.transmitState ∧
      (captureLoop fuel samples s).workerState = s.workerState := by
  induction fuel generalizing s samples with
  | zero => exact ⟨rfl, rfl⟩
  | succ fuel ih =>
    unfold captureLoop
    dsimp only
    split_ifs
    · exact ⟨rfl, rfl⟩
    · obtain ⟨hstate, hworker⟩ := ih _ _
      rw [hstate, hworker]
      unfold assembled
      split_ifs <;> exact ⟨rfl, rfl⟩

/-- Neither do those of the worker for a frame. -/
theorem states_processFrame (s : AudioPath α) (pcm : PcmFrame α) (shouldTransmit : Bool) :
    (s.processFrame pcm shouldTransmit).transmitState = s.transmitState ∧
      (s.processFrame pcm shouldTransmit).workerState = s.workerState := by
  unfold processFrame closeBurst transmit openBurst
  dsimp only
  split_ifs <;> exact ⟨rfl, rfl⟩

theorem states_processFrames (decisions : ℕ → Bool) (fuel i : ℕ) (s : AudioPath α) :
    (processFrames decisions fuel i s).transmitState = s.transmitState ∧
      (processFrames decisions fuel i s).workerState = s.workerState := by
  induction fuel generalizing i s with
  | zero => exact ⟨rfl, rfl⟩
  | succ fuel ih =>
    unfold processFrames
    split
    · exact ⟨rfl, rfl⟩
    · next pcm captureQueue _ =>
      obtain ⟨hstate, hworker⟩ := ih (i + 1) ({ s with captureQueue }.processFrame pcm (decisions i))
      obtain ⟨hstate', hworker'⟩ := states_processFrame { s with captureQueue } pcm (decisions i)
      exact ⟨hstate.trans hstate', hworker.trans hworker'⟩

theorem states_adoptState (s : AudioPath α) : s.adoptState.transmitState = s.transmitState ∧
    s.adoptState.workerState = s.transmitState := by
  unfold adoptState
  dsimp only
  split_ifs <;> exact ⟨rfl, rfl⟩

theorem states_sendNext (s : AudioPath α) :
    s.sendNext.transmitState = s.transmitState ∧ s.sendNext.workerState = s.workerState := by
  unfold sendNext
  split
  · exact ⟨rfl, rfl⟩
  · dsimp only
    split_ifs <;> exact ⟨rfl, rfl⟩

theorem states_takeTransmitStateChange (s : AudioPath α) :
    s.takeTransmitStateChange.transmitState = s.transmitState ∧
      s.takeTransmitStateChange.workerState = s.workerState := by
  unfold takeTransmitStateChange
  split_ifs <;> exact ⟨rfl, rfl⟩

/-- The worker knows the transmit state or an older one. -/
structure WorkerBehind (s : AudioPath α) : Prop where
  le : s.workerState.revision ≤ s.transmitState.revision
  eq : s.workerState.revision = s.transmitState.revision → s.workerState = s.transmitState

theorem workerBehind_initial : WorkerBehind ({} : AudioPath α) where
  le := Nat.zero_le _
  eq := by simp

theorem WorkerBehind.congr {s t : AudioPath α} (h : WorkerBehind s)
    (hstates : t.transmitState = s.transmitState ∧ t.workerState = s.workerState) :
    WorkerBehind t := by
  constructor <;> rw [hstates.1, hstates.2]
  · exact h.le
  · exact h.eq

theorem WorkerBehind.of_eq {s : AudioPath α} (h : s.workerState = s.transmitState) :
    WorkerBehind s where
  le := (congrArg _ h).le
  eq _ := h

/-- What the worker does first leaves it with the transmit state. -/
theorem workerState_adopted {s : AudioPath α} (h : WorkerBehind s) :
    (if s.StateChanged then s.adoptState else s).workerState =
      (if s.StateChanged then s.adoptState else s).transmitState := by
  split_ifs with hchanged
  · rw [(states_adoptState s).1, (states_adoptState s).2]
  · exact h.eq (not_not.1 (not_or.1 hchanged).1).symm

theorem WorkerBehind.step {s : AudioPath α} (h : WorkerBehind s) (step : Step α) :
    WorkerBehind (s.step step) := by
  cases step with
  | setTransmitEnabled enabled =>
    show WorkerBehind (s.setTransmitEnabled enabled)
    unfold setTransmitEnabled
    split_ifs
    · exact h
    · have hlt : s.workerState.revision < s.transmitState.revision + 1 := Nat.lt_succ_of_le h.le
      exact ⟨hlt.le, fun heq => absurd heq hlt.ne⟩
  | setCaptureMonitor monitor => exact ⟨h.le, h.eq⟩
  | onCapturedSamples samples =>
    show WorkerBehind (s.onCapturedSamples samples)
    unfold onCapturedSamples
    split_ifs
    · exact ⟨h.le, h.eq⟩
    · exact h.congr (states_captureLoop _ _ s)
  | processCapture decisions =>
    show WorkerBehind (s.processCapture decisions)
    have hadopted := WorkerBehind.of_eq (workerState_adopted h)
    unfold processCapture
    dsimp only
    split_ifs at hadopted ⊢
    all_goals first
      | exact hadopted
      | exact hadopted.congr (states_processFrames _ _ _ _)
  | takeTransmitStateChange => exact h.congr (states_takeTransmitStateChange s)
  | sendNext => exact h.congr (states_sendNext s)
  | processAudio =>
    exact Function.Iterate.rec WorkerBehind (h.congr (states_takeTransmitStateChange s))
      (fun t h => h.congr (states_sendNext t)) _

end AudioPath

end TsCli
