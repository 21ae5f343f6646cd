import Mathlib.Data.List.DropRight
import TsCli.Audio.TransmitPath

/-!
# Talk bursts on the wire

A burst is closed by an end marker that shares the outgoing queue with speech: the marker is lost
when the queue is full, and the network thread drops it when its revision is not the consumed one.
In a run in which neither happens to a burst that is open, every burst is closed on the wire before
the next one starts, and the last one once transmission is off.
-/

namespace TsCli

variable {α : Type}

/-! ## Orderly sequences of frames -/

namespace EncodedFrame

/-- Two frames in a row are of one burst, unless one of them is an end marker. -/
def Adjacent (a b : EncodedFrame α) : Prop :=
  a.talkEnd = true ∨ b.talkEnd = true ∨ a.burst = b.burst

/-- No burst is open at the end. -/
def Ended (l : List (EncodedFrame α)) : Prop := ∀ frame ∈ l.getLast?, frame.talkEnd = true

/-- Bursts do not mix, and the one that is open at the end is the current one. -/
structure Orderly (l : List (EncodedFrame α)) (current : Option ℕ) : Prop where
  chain : l.IsChain Adjacent
  last : ∀ frame ∈ l.getLast?, frame.talkEnd = false → current = some frame.burst
  marker : ∀ frame ∈ l, frame.talkEnd = true → frame.samples = [] ∧ frame.talkStart = false

variable {l r : List (EncodedFrame α)} {frame : EncodedFrame α} {current current' : Option ℕ}

theorem orderly_nil : Orderly ([] : List (EncodedFrame α)) current :=
  ⟨List.isChain_nil, by simp, by simp⟩

theorem Orderly.ended_of_none (h : Orderly l none) : Ended l := fun frame hframe => by
  cases hend : frame.talkEnd with
  | true => rfl
  | false => exact absurd (h.last frame hframe hend) (by simp)

theorem Orderly.of_ended (h : Orderly l current) (hended : Ended l) : Orderly l current' where
  chain := h.chain
  last frame hframe hspeech := by simp [hended frame hframe] at hspeech
  marker := h.marker

/-- An end marker ends what comes before it. -/
theorem Orderly.append_marker (h : Orderly l current) (hend : frame.talkEnd = true)
    (hempty : frame.samples = [] ∧ frame.talkStart = false) : Orderly (l ++ [frame]) current' where
  chain := h.chain.append (List.isChain_singleton _) fun _ _ b hb => by
    obtain rfl : frame = b := by simpa using hb
    exact .inr (.inl hend)
  last other hother hspeech := by
    obtain rfl : frame = other := by simpa using hother
    simp [hend] at hspeech
  marker other hother hother' := by
    rcases List.mem_append.1 hother with hother | hother
    · exact h.marker other hother hother'
    · rwa [List.mem_singleton.1 hother]

theorem ended_append_marker (hend : frame.talkEnd = true) : Ended (l ++ [frame]) := by
  intro other hother
  obtain rfl : frame = other := by simpa using hother
  exact hend

/-- Speech of the current burst goes behind it. -/
theorem Orderly.append_speech (h : Orderly l current) (hspeech : frame.talkEnd = false)
    (hburst : current = some frame.burst ∨ Ended l) :
    Orderly (l ++ [frame]) (some frame.burst) where
  chain := h.chain.append (List.isChain_singleton _) fun a ha b hb => by
    obtain rfl : frame = b := by simpa using hb
    cases hend : a.talkEnd with
    | true => exact .inl hend
    | false =>
      rcases hburst with hburst | hended
      · exact .inr (.inr (Option.some.inj ((h.last a ha hend).symm.trans hburst)))
      · simp [hended a ha] at hend
  last other hother _ := by
    obtain rfl : frame = other := by simpa using hother
    rfl
  marker other hother hother' := by
    rcases List.mem_append.1 hother with hother | hother
    · exact h.marker other hother hother'
    · rw [List.mem_singleton.1 hother, hspeech] at hother'
      cases hother'

/-- Speech on both sides of speech is of its burst. -/
theorem Adjacent.trans {a b : EncodedFrame α} (ha : Adjacent a frame) (hb : Adjacent frame b)
    (hspeech : frame.talkEnd = false) : Adjacent a b := by
  rcases ha with ha | ha | ha
  · exact .inl ha
  · simp [hspeech] at ha
  · rcases hb with hb | hb | hb
    · simp [hspeech] at hb
    · exact .inr (.inl hb)
    · exact .inr (.inr (ha.trans hb))

/-- Dropping a frame: an end marker only where no burst is open. -/
theorem Orderly.drop (h : Orderly (l ++ frame :: r) current)
    (hframe : frame.talkEnd = true → Ended l) : Orderly (l ++ r) current := by
  obtain ⟨hl, hr, hlink⟩ := List.isChain_append.1 h.chain
  obtain ⟨hhead, hr⟩ := List.isChain_cons.1 hr
  have hbefore : ∀ a ∈ l.getLast?, Adjacent a frame := fun a ha => hlink a ha frame (by simp)
  refine ⟨hl.append hr fun a ha b hb => ?_, fun other hother hspeech => ?_, fun other hother => ?_⟩
  · cases hend : frame.talkEnd with
    | true => exact .inl (hframe hend a ha)
    | false => exact (hbefore a ha).trans (hhead b hb) hend
  · cases r with
    | cons b r => exact h.last other (by simpa using hother) hspeech
    | nil =>
      have hother : other ∈ l.getLast? := by simpa using hother
      cases hend : frame.talkEnd with
      | true => simp [hframe hend other hother] at hspeech
      | false =>
        have hburst : other.burst = frame.burst := by
          simpa [Adjacent, hspeech, hend] using hbefore other hother
        rw [hburst]
        exact h.last frame (by simp) hend
  · refine h.marker other ?_
    rcases List.mem_append.1 hother with hother | hother
    · exact List.mem_append_left _ hother
    · exact List.mem_append_right _ (List.mem_cons_of_mem _ hother)

/-- The frames behind the last end marker. -/
def unterminated (l : List (EncodedFrame α)) : List (EncodedFrame α) :=
  l.rtakeWhile fun frame => !frame.talkEnd

/-- They are all of one burst, the one of the speech that follows. -/
theorem burst_of_unterminated (h : (l ++ [frame]).IsChain Adjacent)
    (hspeech : frame.talkEnd = false) : ∀ other ∈ unterminated l, other.burst = frame.burst := by
  induction l using List.reverseRecOn generalizing frame with
  | nil => simp [unterminated]
  | append_singleton l a ih =>
    intro other hother
    unfold unterminated at hother
    rw [List.rtakeWhile_concat] at hother
    split_ifs at hother with ha
    · obtain ⟨hchain, -, hlink⟩ := List.isChain_append.1 h
      have hburst : a.burst = frame.burst := by
        have hlast : Adjacent a frame := hlink a (by simp) frame (by simp)
        simpa [Adjacent, hspeech, show a.talkEnd = false by simpa using ha] using hlast
      rcases List.mem_append.1 hother with hother | hother
      · exact (ih hchain (by simpa using ha) other hother).trans hburst
      · rw [List.mem_singleton.1 hother, hburst]
    · simp at hother

end EncodedFrame

open EncodedFrame

namespace AudioPath

variable {s : AudioPath α}

/-! ## The frames on their way -/

/-- What was sent and what is queued, in order. -/
def frames (s : AudioPath α) : List (EncodedFrame α) :=
  s.sent.map SentVoice.frame ++ s.outgoingQueue.contents

/-- The burst whose frames the worker queues. -/
def current (s : AudioPath α) : Option ℕ :=
  if s.gateActive && s.workerState.enabled then some s.burst else none

/-- The bursts on their way are in order. -/
def Closing (s : AudioPath α) : Prop := Orderly (frames s) (current s)

/-- An end marker finds room, or has nothing to end. -/
def EndFits (s : AudioPath α) : Prop :=
  Ended (frames s) ∨ s.outgoingQueue.contents.length + 1 < outgoingQueueCapacity

theorem closing_initial : Closing ({} : AudioPath α) := by
  have hframes : frames ({} : AudioPath α) = [] := by simp [frames]
  unfold Closing
  rw [hframes]
  exact orderly_nil

/-- A push appends to the frames, or finds the queue full. -/
theorem frames_tryPush (s : AudioPath α) (frame : EncodedFrame α) :
    s.sent.map SentVoice.frame ++ (s.outgoingQueue.tryPush frame).2.contents =
        frames s ++ [frame] ∨
      s.outgoingQueue.contents.length + 1 = outgoingQueueCapacity ∧
        s.sent.map SentVoice.frame ++ (s.outgoingQueue.tryPush frame).2.contents = frames s := by
  rcases s.outgoingQueue.tryPush_cases frame with ⟨hfull, hpush⟩ | ⟨-, -, hpush⟩
  · exact .inr ⟨hfull, by rw [hpush]; rfl⟩
  · exact .inl (by rw [hpush, ← List.append_assoc]; rfl)

/-- Where no burst is open, the current one does not matter. -/
theorem Closing.ended (h : Closing s) (hidle : current s = none) : Ended (frames s) :=
  Orderly.ended_of_none (hidle ▸ h)

/-! ## The worker -/

/-- An end marker that fits ends everything. -/
theorem orderly_queueTalkEnd {c : Option ℕ} (h : Orderly (frames s) c) (hfits : EndFits s)
    (revision : ℕ) : Ended (frames (s.queueTalkEnd revision)) ∧
      ∀ c', Orderly (frames (s.queueTalkEnd revision)) c' := by
  rcases frames_tryPush s { transmitRevision := revision, talkEnd := true } with hpush |
    ⟨hfull, hpush⟩
  · rw [show frames (s.queueTalkEnd revision) = _ from hpush]
    exact ⟨ended_append_marker rfl, fun _ => h.append_marker rfl ⟨rfl, rfl⟩⟩
  · have hended := hfits.resolve_right hfull.not_lt
    rw [show frames (s.queueTalkEnd revision) = _ from hpush]
    exact ⟨hended, fun _ => h.of_ended hended⟩

/-- So nothing is open behind `closeBurst`. -/
theorem orderly_closeBurst {c : Option ℕ} (h : Orderly (frames s) c)
    (hmuted : s.workerState.enabled = false → Ended (frames s))
    (hfits : s.workerState.enabled = true → EndFits s) (c' : Option ℕ) :
    Orderly (frames s.closeBurst) c' := by
  unfold AudioPath.closeBurst
  cases henabled : s.workerState.enabled with
  | true => exact (orderly_queueTalkEnd h (hfits henabled) s.workerState.revision).2 c'
  | false => exact h.of_ended (hmuted henabled)

/-- A frame of the current burst is queued, or dropped. -/
theorem closing_transmit {c : Option ℕ} (h : Orderly (frames s) c) (hgate : s.gateActive = true)
    (hmuted : s.workerState.enabled = false → Ended (frames s))
    (hc : c = some s.burst ∨ Ended (frames s)) (pcm : PcmFrame α) : Closing (s.transmit pcm) := by
  unfold Closing AudioPath.transmit
  cases henabled : s.workerState.enabled with
  | false =>
    simp only [henabled, Bool.not_false, if_true]
    exact h.of_ended (hmuted henabled)
  | true =>
    simp only [henabled, Bool.not_true, Bool.false_eq_true, if_false]
    show Orderly (s.sent.map SentVoice.frame ++ (s.outgoingQueue.tryPush (s.encoded pcm)).2.contents)
      (current s)
    rw [show current s = some s.burst by simp [current, hgate, henabled]]
    rcases frames_tryPush s (s.encoded pcm) with hpush | ⟨-, hpush⟩
    · exact hpush ▸ h.append_speech (show (s.encoded pcm).talkEnd = false from rfl) hc
    · rcases hc with hc | hended
      · exact hpush ▸ hc ▸ h
      · exact hpush ▸ h.of_ended hended

/-- The condition on the worker for a frame: when the gate closes, the end marker fits. -/
def FrameCloses (s : AudioPath α) (shouldTransmit : Bool) : Prop :=
  shouldTransmit = false → s.gateActive = true → s.workerState.enabled = true → EndFits s

theorem Closing.processFrame (h : Closing s) (pcm : PcmFrame α) {shouldTransmit : Bool}
    (hcloses : FrameCloses s shouldTransmit) : Closing (s.processFrame pcm shouldTransmit) := by
  have hmuted : s.workerState.enabled = false → Ended (frames s) := fun henabled =>
    h.ended (by simp [current, henabled])
  unfold AudioPath.processFrame
  cases shouldTransmit with
  | false =>
    simp only [Bool.not_false, if_true]
    split_ifs with htalking
    · exact orderly_closeBurst (s := { s with gateActive := false }) h hmuted
        (hcloses rfl htalking) _
    · exact h.of_ended (h.ended (by simp [current, htalking]))
  | true =>
    simp only [Bool.not_true, Bool.false_eq_true, if_false]
    split_ifs with htalking
    · refine closing_transmit (s := { s with gateActive := true }) h rfl hmuted ?_ pcm
      cases henabled : s.workerState.enabled with
      | true => exact .inl (by simp [current, htalking, henabled])
      | false => exact .inr (hmuted henabled)
    · have hended : Ended (frames s) := h.ended (by simp [current, htalking])
      have hopen : Orderly (frames { s with gateActive := true }.openBurst) (current s) := h
      exact closing_transmit hopen rfl hmuted (.inr hended) pcm

/-- The condition on the loop of the worker. -/
def FramesClose (decisions : ℕ → Bool) : ℕ → ℕ → AudioPath α → Prop
  | 0, _, _ => True
  | fuel + 1, i, s =>
    match s.captureQueue.tryPop with
    | (none, _) => True
    | (some pcm, captureQueue) =>
      FrameCloses s (decisions i) ∧
        FramesClose decisions fuel (i + 1) ({ s with captureQueue }.processFrame pcm (decisions i))

theorem Closing.processFrames {decisions : ℕ → Bool} {fuel i : ℕ} (h : Closing s)
    (hclose : FramesClose decisions fuel i s) : Closing (processFrames decisions fuel i s) := by
  induction fuel generalizing i s with
  | zero => exact h
  | succ fuel ih =>
    unfold AudioPath.processFrames
    unfold FramesClose at hclose
    rcases hpop : s.captureQueue.tryPop with ⟨_ | pcm, captureQueue⟩
    · exact h
    · rw [hpop] at hclose
      have hpopped : Closing { s with captureQueue } := h
      exact ih (hpopped.processFrame _ hclose.1) hclose.2

theorem Closing.adoptState (h : Closing s)
    (hfits : s.gateActive = true → s.workerState.enabled = true → EndFits s) :
    Closing s.adoptState := by
  unfold AudioPath.adoptState
  dsimp only
  split_ifs with htalking
  · obtain ⟨hgate, henabled⟩ := Bool.and_eq_true_iff.1 htalking
    exact (orderly_queueTalkEnd (s := { s with
      workerState := s.transmitState
      workerMonitor := s.captureMonitor
      gateActive := false
      captureQueue := s.captureQueue.clear
      talkStartRemaining := 0 }) h (hfits hgate henabled) _).2 _
  · have hidle : current s = none := if_neg htalking
    exact h.of_ended (h.ended hidle)

/-- The condition on a worker step: no end marker of an open burst is dropped. -/
def CaptureCloses (s : AudioPath α) (decisions : ℕ → Bool) : Prop :=
  (s.StateChanged → s.gateActive = true → s.workerState.enabled = true → EndFits s) ∧
    FramesClose decisions captureQueueCapacity 0 (if s.StateChanged then s.adoptState else s)

theorem Closing.processCapture (h : Closing s) {decisions : ℕ → Bool}
    (hcloses : CaptureCloses s decisions) : Closing (s.processCapture decisions) := by
  obtain ⟨hfits, hframes⟩ := hcloses
  have hstart : Closing (if s.StateChanged then s.adoptState else s) := by
    split_ifs with hchanged
    · exact h.adoptState (hfits hchanged)
    · exact h
  unfold AudioPath.processCapture
  dsimp only
  split_ifs at hstart hframes ⊢
  all_goals first
    | exact hstart
    | exact hstart.processFrames hframes

/-! ## The network thread -/

/-- The condition on a frame that the network thread takes: an end marker of another revision ends
no open burst. -/
def EndReaches (s : AudioPath α) : Prop :=
  ∀ frame ∈ s.outgoingQueue.contents.head?, frame.talkEnd = true →
    frame.transmitRevision ≠ s.audioTransmitRevision → Ended (s.sent.map SentVoice.frame)

theorem Closing.sendNext (h : Closing s) (hreaches : EndReaches s) : Closing s.sendNext := by
  unfold AudioPath.sendNext
  rcases s.outgoingQueue.tryPop_cases with ⟨-, hpop⟩ | ⟨frame, hframe, hcontents⟩
  · rw [hpop]
    exact h
  · have hpop : s.outgoingQueue.tryPop = (some frame, s.outgoingQueue.tryPop.2) :=
      Prod.ext hframe rfl
    have hframes : frames s = s.sent.map SentVoice.frame ++
        frame :: s.outgoingQueue.tryPop.2.contents := by
      rw [← hcontents]
      rfl
    have h' : Orderly (s.sent.map SentVoice.frame ++ frame :: s.outgoingQueue.tryPop.2.contents)
        (current s) := hframes ▸ h
    rw [hpop]
    dsimp only
    split_ifs with hrevision hmuted
    · exact h'.drop fun hend => hreaches frame (by rw [hcontents]; rfl) hend hrevision
    · refine h'.drop fun hend => ?_
      simp [hend] at hmuted
    · show Orderly ((s.sent ++ [_]).map SentVoice.frame ++ _) (current s)
      rw [List.map_append, List.append_assoc]
      exact h'

/-- The condition on a step. -/
def Closes (s : AudioPath α) : Step α → Prop
  | .processCapture decisions => CaptureCloses s decisions
  | .sendNext => EndReaches s
  | .processAudio => ∀ n < outgoingQueueCapacity,
      EndReaches (AudioPath.sendNext^[n] s.takeTransmitStateChange)
  | _ => True

/-- The steps of the other threads move no frames and open no burst. -/
theorem Closing.congr {t : AudioPath α} (h : Closing s) (hsent : t.sent = s.sent)
    (hqueue : t.outgoingQueue = s.outgoingQueue) (hgate : t.gateActive = s.gateActive)
    (hworker : t.workerState = s.workerState) (hburst : t.burst = s.burst) : Closing t := by
  unfold Closing frames current
  rw [hsent, hqueue, hgate, hworker, hburst]
  exact h

theorem Closing.captureLoop (h : Closing s) (fuel : ℕ) (samples : List α) :
    Closing (captureLoop fuel samples s) := by
  induction fuel generalizing s samples with
  | zero => exact h
  | succ fuel ih =>
    unfold AudioPath.captureLoop
    dsimp only
    split_ifs
    · exact h
    · refine ih (h.congr ?_ ?_ ?_ ?_ ?_) _ <;> unfold AudioPath.assembled <;> split_ifs <;> rfl

theorem Closing.takeTransmitStateChange (h : Closing s) : Closing s.takeTransmitStateChange := by
  unfold AudioPath.takeTransmitStateChange
  split_ifs
  · exact h
  · exact h.congr rfl rfl rfl rfl rfl

theorem Closing.step (h : Closing s) (step : Step α) (hcloses : Closes s step) :
    Closing (s.step step) := by
  cases step with
  | setTransmitEnabled enabled =>
    show Closing (s.setTransmitEnabled enabled)
    unfold AudioPath.setTransmitEnabled
    split_ifs
    · exact h
    · exact h.congr rfl rfl rfl rfl rfl
  | setCaptureMonitor monitor => exact h.congr rfl rfl rfl rfl rfl
  | onCapturedSamples samples =>
    show Closing (s.onCapturedSamples samples)
    unfold AudioPath.onCapturedSamples
    split_ifs
    · exact h.congr rfl rfl rfl rfl rfl
    · exact h.captureLoop _ _
  | processCapture decisions => exact h.processCapture hcloses
  | takeTransmitStateChange => exact h.takeTransmitStateChange
  | sendNext => exact h.sendNext hcloses
  | processAudio =>
    show Closing (AudioPath.sendNext^[outgoingQueueCapacity] s.takeTransmitStateChange)
    have hloop : ∀ n ≤ outgoingQueueCapacity,
        Closing (AudioPath.sendNext^[n] s.takeTransmitStateChange) := by
      intro n hn
      induction n with
      | zero => exact h.takeTransmitStateChange
      | succ n ih =>
        rw [Function.iterate_succ_apply']
        exact (ih (Nat.le_of_succ_le hn)).sendNext (hcloses n hn)
    exact hloop _ le_rfl

/-! ## Runs -/

/-- Once transmission is off and the threads have settled, the last packet is an end marker. -/
def EndedWhenSettled (s : AudioPath α) : Prop :=
  s.transmitState.enabled = false → s.workerState.revision = s.transmitState.revision →
    s.networkTransmitRevision = s.transmitState.revision → s.outgoingQueue.contents = [] →
      ∀ voice ∈ s.sent.getLast?, voice.frame.talkEnd = true ∧ voice.frame.samples = []

/-- No frame that starts a burst is sent while another burst is open. -/
def StartsWhenEnded (s : AudioPath α) : Prop :=
  ∀ before voice after, s.sent = before ++ voice :: after → voice.frame.talkStart = true →
    ∀ frame ∈ unterminated (before.map SentVoice.frame), frame.burst = voice.frame.burst

theorem Closing.endedWhenSettled (h : Closing s) (hworker : WorkerBehind s) :
    EndedWhenSettled s := by
  intro hoff hsame _ hempty voice hvoice
  have hmuted : s.workerState.enabled = false := by rw [hworker.eq hsame, hoff]
  have hframes : frames s = s.sent.map SentVoice.frame := by
    rw [frames, hempty, List.append_nil]
  have hlast : voice.frame ∈ (frames s).getLast? := by
    rw [hframes, List.getLast?_map]
    exact Option.mem_map_of_mem _ hvoice
  have hend := h.ended (by simp [current, hmuted]) voice.frame hlast
  exact ⟨hend, (h.marker _ (List.mem_of_mem_getLast? hlast) hend).1⟩

theorem Closing.startsWhenEnded (h : Closing s) : StartsWhenEnded s := by
  intro before voice after hsent hstart
  have hframes : frames s = (before.map SentVoice.frame ++ [voice.frame]) ++
      (after.map SentVoice.frame ++ s.outgoingQueue.contents) := by
    simp [frames, hsent]
  have hspeech : voice.frame.talkEnd = false := by
    by_contra hend
    have hmarker := (h.marker voice.frame (by simp [hframes]) (by simpa using hend)).2
    rw [hstart] at hmarker
    cases hmarker
  refine burst_of_unterminated ?_ hspeech
  exact (hframes ▸ h.chain : List.IsChain _ _).left_of_append

/-- **Every burst is closed on the wire**, in a run in which no end marker of an open burst is
dropped. -/
theorem bursts_closed (steps : List (Step α)) (h : Runs.Along AudioPath.step Closes {} steps) :
    EndedWhenSettled (run steps) ∧ StartsWhenEnded (run steps) := by
  have hclosing : WorkerBehind (run steps) ∧ Closing (run steps) :=
    h.invariant (I := fun s => WorkerBehind s ∧ Closing s)
      (fun s step hs hcloses => ⟨hs.1.step step, hs.2.step step hcloses⟩)
      ⟨workerBehind_initial, closing_initial⟩
  exact ⟨hclosing.2.endedWhenSettled hclosing.1, hclosing.2.startsWhenEnded⟩

/-- A frame is sent, and transmission is switched off. -/
def talk : List (Step Unit) :=
  [.setTransmitEnabled true, .processCapture fun _ => true, .takeTransmitStateChange,
    .onCapturedSamples (List.replicate 960 ()), .processCapture fun _ => true, .sendNext,
    .setTransmitEnabled false]

theorem framesClose_open (fuel i : ℕ) (s : AudioPath α) :
    FramesClose (fun _ => true) fuel i s := by
  induction fuel generalizing i s with
  | zero => trivial
  | succ fuel ih =>
    unfold FramesClose
    split
    · trivial
    · exact ⟨nofun, ih _ _⟩

theorem captureCloses_open (h : s.outgoingQueue.contents.length + 1 < outgoingQueueCapacity) :
    CaptureCloses s fun _ => true :=
  ⟨fun _ _ _ => .inr h, framesClose_open _ _ _⟩

theorem endReaches_of_all (h : s.outgoingQueue.contents.head?.all
    (fun frame => !frame.talkEnd || frame.transmitRevision == s.audioTransmitRevision) = true) :
    EndReaches s := by
  intro frame hframe hend hrevision
  rw [show s.outgoingQueue.contents.head? = some frame from hframe] at h
  simp [hend, hrevision] at h

/-- The network thread learns of the switch before it takes the end marker, and sends it. -/
theorem bursts_closed_talk :
    (run (talk ++ [.processCapture fun _ => true, .takeTransmitStateChange, .sendNext])).sent.map
        (fun voice => voice.frame.talkEnd) = [false, true] ∧
      EndedWhenSettled
        (run (talk ++ [.processCapture fun _ => true, .takeTransmitStateChange, .sendNext])) := by
  refine ⟨by decide +kernel, (bursts_closed _ ?_).1⟩
  refine ⟨trivial, captureCloses_open ?_, trivial, trivial, captureCloses_open ?_,
    endReaches_of_all ?_, trivial, captureCloses_open ?_, trivial, endReaches_of_all ?_, trivial⟩ <;>
    decide +kernel

/-- The network thread takes the end marker before it learns of the switch, and drops it. -/
theorem burst_left_open : ¬ ∀ steps : List (Step Unit),
    EndedWhenSettled (run steps) ∧ StartsWhenEnded (run steps) := by
  intro h
  let steps := talk ++ [.processCapture fun _ => true, .sendNext, .takeTransmitStateChange]
  have hsettled := (h steps).1 (by decide +kernel) (by decide +kernel) (by decide +kernel)
    (by decide +kernel)
  have hlast : (run steps).sent.getLast?.any (fun voice => !voice.frame.talkEnd) = true := by
    decide +kernel
  obtain ⟨voice, hvoice, hspeech⟩ := (Option.any_eq_true _ _).1 hlast
  simp [(hsettled voice hvoice).1] at hspeech

end AudioPath

end TsCli
