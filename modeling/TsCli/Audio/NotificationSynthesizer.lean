import TsCli.Audio.CaptureFraming

/-!
# Notification sounds

A notification is a few notes with pauses between them. `Mix` adds to each frame the samples of the
notes that fall into it, and keeps its place in between. What it adds does not depend on how the
time is cut into frames: over all frames since `Start`, it is the sound of the notification from its
beginning on (`sounds_mixes`).
-/

namespace TsCli

/-- The operations on `float` that the mix uses. -/
class AudioFloat (F : Type) extends Zero F, One F, Neg F, Add F, Sub F, Mul F, Div F, NatCast F,
    OfScientific F where
  /-- `<`. -/
  less : F → F → Bool
  /-- `std::sin`. -/
  sin : F → F

/-- `SampleRate`. -/
def sampleRate : ℕ := 48000

/-- `NotificationType`. -/
inductive NotificationType
  | message
  | success
  | failure
  | reminder
  deriving DecidableEq, Repr

/-- `NotificationSynthesizer::Step`. -/
structure NotificationSynthesizer.Note (F : Type) where
  frequencyHz : F
  durationMilliseconds : ℕ
  volume : F

/-- `NotificationSynthesizer`; the steps of the pattern are the ones that `stepCount` counts. -/
structure NotificationSynthesizer (F : Type) where
  pattern : List (NotificationSynthesizer.Note F) := []
  stepIndex : ℕ := 0
  stepSample : ℕ := 0

namespace NotificationSynthesizer

variable {F : Type}

/-- `NotificationSynthesizer::SamplesFor`. -/
def samplesFor (step : Note F) : ℕ := sampleRate * step.durationMilliseconds / 1000

/-- `NotificationSynthesizer::Active`. -/
def active (s : NotificationSynthesizer F) : Bool := s.stepIndex < s.pattern.length

/-- The loop of `AdvanceCompletedSteps`. -/
def advanceLoop : ℕ → NotificationSynthesizer F → NotificationSynthesizer F
  | 0, s => s
  | fuel + 1, s =>
    match s.pattern[s.stepIndex]? with
    | none => s
    | some step =>
      if s.stepSample < samplesFor step then s
      else advanceLoop fuel { s with stepIndex := s.stepIndex + 1, stepSample := 0 }

/-- `NotificationSynthesizer::AdvanceCompletedSteps`. A pass takes a step of the pattern. -/
def advanceCompletedSteps (s : NotificationSynthesizer F) : NotificationSynthesizer F :=
  advanceLoop (s.pattern.length - s.stepIndex) s

variable [AudioFloat F]

/-- `NotificationSynthesizer::PatternFor`. -/
def patternFor : NotificationType → List (Note F)
  | .message => [{ frequencyHz := 880.0, durationMilliseconds := 120, volume := 0.18 }]
  | .success =>
    [{ frequencyHz := 523.25, durationMilliseconds := 80, volume := 0.17 },
      { frequencyHz := 0.0, durationMilliseconds := 20, volume := 0.0 },
      { frequencyHz := 659.25, durationMilliseconds := 130, volume := 0.19 }]
  | .failure =>
    [{ frequencyHz := 520.0, durationMilliseconds := 100, volume := 0.17 },
      { frequencyHz := 0.0, durationMilliseconds := 20, volume := 0.0 },
      { frequencyHz := 330.0, durationMilliseconds := 170, volume := 0.19 }]
  | .reminder =>
    [{ frequencyHz := 783.99, durationMilliseconds := 70, volume := 0.16 },
      { frequencyHz := 0.0, durationMilliseconds := 80, volume := 0.0 },
      { frequencyHz := 1046.50, durationMilliseconds := 100, volume := 0.18 }]

/-- `NotificationSynthesizer::Start`. -/
def start (type : NotificationType) (_ : NotificationSynthesizer F) : NotificationSynthesizer F :=
  { pattern := patternFor type }

/-- `NotificationSynthesizer::Envelope`. -/
def envelope (progress : F) : F :=
  if AudioFloat.less progress 0.08 then progress / 0.08
  else if AudioFloat.less (1.0 - 0.25) progress then (1.0 - progress) / 0.25
  else 1.0

/-- What a sample of a step adds, which for a pause is nothing. -/
def tone (step : Note F) (stepSample : ℕ) : Option F :=
  if AudioFloat.less 0.0 step.frequencyHz then
    let time : F := (stepSample : F) / (sampleRate : F)
    let progress : F :=
      if 1 < samplesFor step then (stepSample : F) / ((samplesFor step - 1 : ℕ) : F) else 1.0
    some (AudioFloat.sin ((6.28318530717958647692 : F) * step.frequencyHz * time) * step.volume *
      envelope progress)
  else none

def addTone (sample : F) (value : Option F) : F := value.elim sample (sample + ·)

/-- The loop of `Mix`: the frame, the synthesizer and `produced`. -/
def mixLoop : List F → NotificationSynthesizer F → List F × NotificationSynthesizer F × Bool
  | [], s => ([], s, false)
  | sample :: frame, s =>
    let s := s.advanceCompletedSteps
    match s.pattern[s.stepIndex]? with
    | none => (sample :: frame, s, false)
    | some step =>
      let (frame, s', _) := mixLoop frame { s with stepSample := s.stepSample + 1 }
      (addTone sample (tone step s.stepSample) :: frame, s', true)

/-- `NotificationSynthesizer::Mix`. -/
def mix (frame : List F) (s : NotificationSynthesizer F) :
    Bool × List F × NotificationSynthesizer F :=
  let s := s.advanceCompletedSteps
  if !s.active then (false, frame, s)
  else
    let (frame, s, produced) := mixLoop frame s
    (produced, frame, s.advanceCompletedSteps)

/-! ## The sound -/

/-- All that a step adds. -/
def tones (step : Note F) : List (Option F) := (List.range (samplesFor step)).map (tone step)

/-- What a pattern sounds like. -/
def sound (pattern : List (Note F)) : List (Option F) := pattern.flatMap tones

/-- What is still to come. -/
def left (s : NotificationSynthesizer F) : List (Option F) :=
  match s.pattern.drop s.stepIndex with
  | [] => []
  | step :: steps => (tones step).drop s.stepSample ++ sound steps

/-- A sound over some samples. -/
def overlay : List F → List (Option F) → List F
  | sample :: frame, value :: sound => addTone sample value :: overlay frame sound
  | frame, _ => frame

@[simp] theorem length_tones (step : Note F) : (tones step).length = samplesFor step := by
  simp [tones]

theorem overlay_nil (frame : List F) : overlay frame [] = frame := by
  cases frame <;> rfl

/-- A sound that ends before some samples do. -/
theorem overlay_append (frame rest : List F) (sound : List (Option F)) :
    overlay (frame ++ rest) sound = overlay frame sound ++ overlay rest (sound.drop frame.length) := by
  induction frame generalizing sound with
  | nil => rfl
  | cons sample frame ih =>
    cases sound with
    | nil => simp [overlay_nil]
    | cons value sound => simp [overlay, ih]

/-- A synthesizer at a note, or at the end. -/
structure Settled (s : NotificationSynthesizer F) : Prop where
  lt : ∀ step, s.pattern[s.stepIndex]? = some step → s.stepSample < samplesFor step

theorem left_of_none {s : NotificationSynthesizer F} (h : s.pattern[s.stepIndex]? = none) :
    s.left = [] := by
  rw [left, List.drop_eq_nil_of_le (List.getElem?_eq_none_iff.1 h)]

theorem left_of_some {s : NotificationSynthesizer F} {step : Note F}
    (h : s.pattern[s.stepIndex]? = some step) :
    s.left = (tones step).drop s.stepSample ++ sound (s.pattern.drop (s.stepIndex + 1)) := by
  obtain ⟨hlt, hstep⟩ := List.getElem?_eq_some_iff.1 h
  rw [left, List.drop_eq_getElem_cons hlt, hstep]

/-- The next step from its beginning on. -/
theorem left_next (s : NotificationSynthesizer F) :
    ({ s with stepIndex := s.stepIndex + 1, stepSample := 0 } : NotificationSynthesizer F).left =
      sound (s.pattern.drop (s.stepIndex + 1)) := by
  rw [left]
  dsimp only
  cases s.pattern.drop (s.stepIndex + 1) with
  | nil => rfl
  | cons step steps => rfl

theorem advanceLoop_spec {fuel : ℕ} {s : NotificationSynthesizer F}
    (hfuel : s.pattern.length ≤ s.stepIndex + fuel) :
    Settled (advanceLoop fuel s) ∧ (advanceLoop fuel s).left = s.left := by
  induction fuel generalizing s with
  | zero =>
    refine ⟨⟨?_⟩, rfl⟩
    intro step hstep
    exact absurd (List.getElem?_eq_some_iff.1 hstep).1 (not_lt.2 hfuel)
  | succ fuel ih =>
    unfold advanceLoop
    cases hstep : s.pattern[s.stepIndex]? with
    | none =>
      refine ⟨⟨?_⟩, rfl⟩
      intro step hstep'
      rw [hstep] at hstep'
      cases hstep'
    | some step =>
      dsimp only
      split_ifs with hlt
      · refine ⟨⟨?_⟩, rfl⟩
        intro step' hstep'
        rw [hstep] at hstep'
        cases hstep'
        exact hlt
      · obtain ⟨hsettled, hleft⟩ :=
          ih (s := { s with stepIndex := s.stepIndex + 1, stepSample := 0 }) (by
            show s.pattern.length ≤ s.stepIndex + 1 + fuel
            omega)
        refine ⟨hsettled, hleft.trans ?_⟩
        have hover : (tones step).drop s.stepSample = [] :=
          List.drop_eq_nil_of_le (by simpa using hlt)
        rw [left_next, left_of_some hstep, hover, List.nil_append]

theorem settled_advance (s : NotificationSynthesizer F) : Settled s.advanceCompletedSteps :=
  (advanceLoop_spec (by omega)).1

theorem left_advance (s : NotificationSynthesizer F) : s.advanceCompletedSteps.left = s.left :=
  (advanceLoop_spec (by omega)).2

/-- A settled synthesizer at a note plays its next sample. -/
theorem Settled.left_eq {s : NotificationSynthesizer F} (hs : Settled s) {step : Note F}
    (hstep : s.pattern[s.stepIndex]? = some step) :
    s.left = tone step s.stepSample ::
      ({ s with stepSample := s.stepSample + 1 } : NotificationSynthesizer F).left := by
  have hlt : s.stepSample < (tones step).length := by simpa using hs.lt step hstep
  have hvalue : (tones step)[s.stepSample] = tone step s.stepSample := by simp [tones]
  rw [left_of_some hstep, List.drop_eq_getElem_cons hlt, hvalue, List.cons_append,
    left_of_some (s := { s with stepSample := s.stepSample + 1 }) hstep]

/-- **The loop of `Mix`.** It adds what falls into the frame, and leaves the rest. -/
theorem mixLoop_eq (frame : List F) (s : NotificationSynthesizer F) :
    (mixLoop frame s).1 = overlay frame s.left ∧
      (mixLoop frame s).2.1.left = s.left.drop frame.length ∧
      (mixLoop frame s).2.2 = (!frame.isEmpty && !s.left.isEmpty) := by
  induction frame generalizing s with
  | nil => exact ⟨rfl, rfl, rfl⟩
  | cons sample frame ih =>
    unfold mixLoop
    rw [← left_advance s]
    have hsettled := settled_advance s
    generalize s.advanceCompletedSteps = t at hsettled ⊢
    dsimp only
    cases hstep : t.pattern[t.stepIndex]? with
    | none =>
      rw [left_of_none hstep]
      exact ⟨rfl, rfl, rfl⟩
    | some step =>
      obtain ⟨hframe, hleft, -⟩ := ih { t with stepSample := t.stepSample + 1 }
      rw [hsettled.left_eq hstep]
      refine ⟨?_, hleft, rfl⟩
      rw [overlay, ← hframe]

theorem left_of_not_active {s : NotificationSynthesizer F} (h : s.active = false) : s.left = [] :=
  left_of_none (List.getElem?_eq_none_iff.2 (not_lt.1 (of_decide_eq_false h)))

/-- **`Mix` on a frame.** -/
theorem mix_eq (frame : List F) (s : NotificationSynthesizer F) :
    (mix frame s).2.1 = overlay frame s.left ∧
      (mix frame s).2.2.left = s.left.drop frame.length ∧
      (mix frame s).1 = (!frame.isEmpty && !s.left.isEmpty) := by
  unfold mix
  rw [← left_advance s]
  generalize s.advanceCompletedSteps = t
  dsimp only
  obtain ⟨hframe, hleft, hproduced⟩ := mixLoop_eq frame t
  cases hactive : t.active with
  | false =>
    rw [left_of_not_active hactive]
    simp [overlay_nil, left_of_not_active hactive]
  | true => exact ⟨hframe, (left_advance _).trans hleft, hproduced⟩

theorem length_overlay (frame : List F) (sound : List (Option F)) :
    (overlay frame sound).length = frame.length := by
  induction frame generalizing sound with
  | nil => rfl
  | cons sample frame ih =>
    cases sound with
    | nil => rfl
    | cons value sound => simp [overlay, ih]

theorem length_mix (frame : List F) (s : NotificationSynthesizer F) :
    (mix frame s).2.1.length = frame.length := by
  rw [(mix_eq frame s).1, length_overlay]

/-- `Mix` on a `PcmFrame`. -/
def mixFrame (frame : FrameSamples F) (s : NotificationSynthesizer F) :
    Bool × FrameSamples F × NotificationSynthesizer F :=
  ((mix frame.toList s).1,
    ⟨(mix frame.toList s).2.1.toArray, by simp [length_mix]⟩, (mix frame.toList s).2.2)

/-! ## Over many frames -/

/-- Frames one after another: what they become, and what each `Mix` returned. -/
def mixes : List (List F) → NotificationSynthesizer F → List (List F) × List Bool
  | [], _ => ([], [])
  | frame :: frames, s =>
    let (produced, frame, s) := mix frame s
    let (frames, returned) := mixes frames s
    (frame :: frames, produced :: returned)

theorem left_start (type : NotificationType) (s : NotificationSynthesizer F) :
    (start type s).left = sound (patternFor type) := by
  cases type <;> rfl

theorem flatten_mixes (frames : List (List F)) (s : NotificationSynthesizer F) :
    (mixes frames s).1.flatten = overlay frames.flatten s.left := by
  induction frames generalizing s with
  | nil => rfl
  | cons frame frames ih =>
    obtain ⟨hframe, hleft, -⟩ := mix_eq frame s
    show (mix frame s).2.1 ++ (mixes frames (mix frame s).2.2).1.flatten = _
    rw [ih, hframe, hleft, List.flatten_cons, overlay_append]

theorem getElem?_mixes (frames : List (List F)) (s : NotificationSynthesizer F) (k : ℕ) :
    (mixes frames s).2[k]? = frames[k]?.map fun frame =>
      !frame.isEmpty && !(s.left.drop (frames.take k).flatten.length).isEmpty := by
  induction frames generalizing s k with
  | nil => rfl
  | cons frame frames ih =>
    obtain ⟨-, hleft, hproduced⟩ := mix_eq frame s
    cases k with
    | zero => simp [mixes, hproduced]
    | succ k =>
      show (mixes frames (mix frame s).2.2).2[k]? = _
      rw [ih, hleft, List.getElem?_cons_succ]
      simp [List.drop_drop]

/-- **A notification sounds the same in any frames.** From its start on, the frames together have
its sound from the beginning on, and each `Mix` returns whether it is still going on. -/
theorem sounds_mixes (type : NotificationType) (s : NotificationSynthesizer F)
    (frames : List (List F)) :
    (mixes frames (start type s)).1.flatten =
        overlay frames.flatten (sound (patternFor type)) ∧
      ∀ k, (mixes frames (start type s)).2[k]? = frames[k]?.map fun frame =>
        decide (frame ≠ [] ∧
          (frames.take k).flatten.length < (sound (patternFor type : List (Note F))).length) := by
  refine ⟨?_, ?_⟩
  · rw [flatten_mixes, left_start]
  · intro k
    rw [getElem?_mixes, left_start]
    congr 1
    funext frame
    rw [Bool.eq_iff_iff]
    simp [List.drop_eq_nil_iff, not_le]

end NotificationSynthesizer

end TsCli
