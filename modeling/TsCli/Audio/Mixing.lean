import TsCli.Audio.NotificationSynthesizer
import TsCli.Audio.PlaybackRendering
import TsCli.Audio.TalkerDecoding
import TsCli.Client.NetworkRuntime

/-!
# Mixing the talkers

The worker thread keeps a decoder and a jitter buffer for each talker. `ProcessIncoming` hands them
the packets of the network, and `MixPlayback` takes a frame from each of them and adds up those that
are heard. A talker is only ever reached under its own client id, so what the others send changes
nothing about its part of the mix (`part_alike`), not even a packet that cannot be decoded.
-/

namespace TsCli

open NotificationSynthesizer (mixFrame)

/-- `LoopbackTalkerId`. -/
def loopbackTalkerId : UInt16 := 0

/-- What the audio worker keeps for the playback, and the queue that it fills. -/
structure AudioEngine (D F : Type) where
  talkers : OrderedMap UInt16 (TalkerState D F) := ∅
  loopbackVoiceId : UInt16 := 0
  receiveDrops : UInt64 := 0
  notificationSynthesizer : NotificationSynthesizer F := {}
  playback : Playback F
  /-- The local `nextMix` of `Worker`. -/
  nextMix : TimePoint

/-- What `MixPlayback` reads of the other threads: `m_TalkerMixSettings`, `m_PlaybackMuted` and
`m_NotificationRequested`. -/
structure MixInputs (F : Type) where
  mixSettings : TalkerMixer F := ∅
  playbackMuted : Bool := false
  notificationRequested : Option NotificationType := none

namespace AudioEngine

variable {D F : Type} (opus : Opus D F)

/-! ## Packets -/

/-- `m_Talkers[clientId]`, with a decoder, and `jitter.Push`. -/
def pushFrame (clientId : UInt16) (s : AudioEngine D F) (frame : IncomingEncodedFrame) :
    Except Failure (AudioEngine D F) := do
  let talker := (s.talkers.find? clientId).getD {}
  let decoder ← match talker.decoder with
    | some d => .ok d
    | none => OpusDecoder.create opus
  .ok { s with talkers := s.talkers.insert clientId { talker with
    decoder := some decoder
    jitter := talker.jitter.push frame } }

/-- `m_Talkers.erase( clientId )`. -/
def eraseTalker (s : AudioEngine D F) (clientId : UInt16) : AudioEngine D F :=
  { s with talkers := s.talkers.erase clientId }

/-- `AudioEngine::ProcessIncoming`, with what the two queues hold. -/
def processIncoming (resets : List UInt16) (frames : List IncomingEncodedFrame)
    (s : AudioEngine D F) : Except Failure (AudioEngine D F) :=
  frames.foldlM (fun s frame => pushFrame opus frame.clientId s frame) (resets.foldl eraseTalker s)

/-- `AudioEngine::PlayLoopback`. -/
def playLoopback (data : Bytes) (talkStart talkEnd : Bool) (s : AudioEngine D F) :
    Except Failure (AudioEngine D F) :=
  pushFrame opus loopbackTalkerId { s with loopbackVoiceId := s.loopbackVoiceId + 1 }
    { clientId := loopbackTalkerId, voiceId := s.loopbackVoiceId, codec := 4, data, talkStart,
      talkEnd }

/-! ## The mix -/

variable [AudioFloat F]

/-- The locals of `MixPlayback`. -/
structure Mix (D F : Type) where
  engine : AudioEngine D F
  mixed : FrameSamples F
  contributors : ℕ := 0

/-- The settings of a talker. -/
def settingsOf (inputs : MixInputs F) (clientId : UInt16) : TalkerMixSettings F :=
  (inputs.mixSettings.find? clientId.toNat).getD { gain := 1, muted := false }

/-- The talker is left out. -/
def unheard (inputs : MixInputs F) (clientId : UInt16) : Bool :=
  (settingsOf inputs clientId).muted || (inputs.playbackMuted && clientId != loopbackTalkerId)

/-- `mixed.samples[index] += decoded.samples[index] * settings.gain`. -/
def addPart (gain : F) (mixed part : FrameSamples F) : FrameSamples F :=
  mixed.zipWith (fun sum sample => sum + sample * gain) part

/-- The loop of `MixPlayback` over the talkers, for one of them. -/
def mixTalker (inputs : MixInputs F) (m : Mix D F) (clientId : UInt16) :
    Except Failure (Mix D F) :=
  match m.engine.talkers.find? clientId with
  | none => .ok m
  | some talker =>
    if talker.decoder.isNone then .ok m
    else do
      let decoded ← talker.decodeFrame opus
      let popped := decoded.1.popFrame
      let engine := { m.engine with
        talkers := m.engine.talkers.insert clientId popped.2
        receiveDrops := if decoded.2 then m.engine.receiveDrops + 1 else m.engine.receiveDrops }
      match popped.1 with
      | none => .ok { m with engine }
      | some samples =>
        if unheard inputs clientId then .ok { m with engine }
        else .ok {
          engine
          mixed := addPart (settingsOf inputs clientId).gain m.mixed samples
          contributors := m.contributors + 1 }

/-- `std::clamp( sample, -1.0F, 1.0F )`. -/
def clampSample (sample : F) : F :=
  if AudioFloat.less sample (-1.0) then -1.0
  else if AudioFloat.less 1.0 sample then 1.0
  else sample

/-- `AudioEngine::MixPlayback`. -/
def mixPlayback (inputs : MixInputs F) (deliver : Bool) (s : AudioEngine D F) :
    Except Failure (AudioEngine D F) := do
  let m ← s.talkers.keys.foldlM (mixTalker opus inputs)
    { engine := s, mixed := Vector.replicate samplesPerFrame 0 }
  let synthesizer := match inputs.notificationRequested with
    | none => m.engine.notificationSynthesizer
    | some type => m.engine.notificationSynthesizer.start type
  let (notification, mixed, notificationSynthesizer) := mixFrame m.mixed synthesizer
  let engine := { m.engine with notificationSynthesizer }
  if !deliver then .ok engine
  else
    let mixed := if m.contributors ≠ 0 ∨ notification then mixed.map clampSample else mixed
    .ok { engine with playback := engine.playback.push mixed }

/-! ## Runs -/

/-- A step of the worker, or a request of the device. -/
inductive Step (F : Type)
  | incoming (resets : List UInt16) (frames : List IncomingEncodedFrame)
  | loopback (data : Bytes) (talkStart talkEnd : Bool)
  | eraseLoopback
  | mix (inputs : MixInputs F) (deliver : Bool)
  | render (now : TimePoint) (size : ℕ)

def step (s : AudioEngine D F) : Step F → Except Failure (AudioEngine D F)
  | .incoming resets frames => s.processIncoming opus resets frames
  | .loopback data talkStart talkEnd => s.playLoopback opus data talkStart talkEnd
  | .eraseLoopback => .ok (s.eraseTalker loopbackTalkerId)
  | .mix inputs deliver => s.mixPlayback opus inputs deliver
  | .render now size =>
    .ok { s with playback := s.playback.renderPlayback 0 now (fun _ => []) size }

def run (steps : List (Step F)) (s : AudioEngine D F) : Except Failure (AudioEngine D F) :=
  steps.foldlM (step opus) s

/-! ## One talker of a run -/

/-- What a step brings to a talker. -/
inductive Event
  | arrivals (reset : Bool) (frames : List IncomingEncodedFrame)
  | loopback (data : Bytes) (talkStart talkEnd : Bool)
  | erased
  | mixed
  deriving DecidableEq

/-- The event of a step for a talker, if the step is one for it. -/
def Step.event? (c : UInt16) : Step F → Option Event
  | .incoming resets frames =>
    let own := frames.filter fun frame => frame.clientId = c
    if c ∈ resets ∨ own ≠ [] then some (.arrivals (c ∈ resets) own) else none
  | .loopback data talkStart talkEnd =>
    if c = loopbackTalkerId then some (.loopback data talkStart talkEnd) else none
  | .eraseLoopback => if c = loopbackTalkerId then some .erased else none
  | .mix _ _ => some .mixed
  | .render _ _ => none

/-- A talker, with the number of the next loopback packet where it is the one for loopback. -/
structure View (D F : Type) where
  talker : Option (TalkerState D F)
  nextVoiceId : UInt16

def view (c : UInt16) (s : AudioEngine D F) : View D F where
  talker := s.talkers.find? c
  nextVoiceId := if c = loopbackTalkerId then s.loopbackVoiceId else 0

namespace View

/-- A packet for the talker, which gets the decoder `new` when it has none. -/
def push (new : D) (talker : Option (TalkerState D F)) (frame : IncomingEncodedFrame) :
    Option (TalkerState D F) :=
  some { talker.getD {} with
    decoder := some ((talker.getD {}).decoder.getD new)
    jitter := (talker.getD {}).jitter.push frame }

/-- The talker behind a mix. -/
def afterMix (talker : TalkerState D F) : TalkerState D F :=
  match talker.decodeFrame opus with
  | .ok decoded => decoded.1.popFrame.2
  | .error _ => talker

/-- What an event does to the talker. -/
def step (new : D) (v : View D F) : Event → View D F
  | .arrivals reset frames =>
    { v with talker := frames.foldl (push new) (if reset then none else v.talker) }
  | .loopback data talkStart talkEnd =>
    { talker := push new v.talker
        { clientId := loopbackTalkerId, voiceId := v.nextVoiceId, codec := 4, data, talkStart,
          talkEnd }
      nextVoiceId := v.nextVoiceId + 1 }
  | .erased => { v with talker := none }
  | .mixed => { v with talker := v.talker.map (afterMix opus) }

/-- What the talker gives to the next mix. -/
def part (v : View D F) : Option (FrameSamples F) :=
  v.talker.bind fun talker =>
    match talker.decodeFrame opus with
    | .ok decoded => decoded.1.popFrame.1
    | .error _ => none

end View

/-! ### What a mix adds up -/

/-- Every talker of the engine is between two frames. -/
def Rested (s : AudioEngine D F) : Prop :=
  ∀ c talker, s.talkers.find? c = some talker → talker.Rested

/-- The part of a talker that is heard, with its gain. -/
def heard? (inputs : MixInputs F) (s : AudioEngine D F) (c : UInt16) :
    Option (F × FrameSamples F) :=
  if unheard inputs c then none
  else ((s.view c).part opus).map fun part => ((settingsOf inputs c).gain, part)

/-- Parts, added up in the order of the client ids. -/
def addParts (mixed : FrameSamples F) (parts : List (F × FrameSamples F)) : FrameSamples F :=
  parts.foldl (fun mixed part => addPart part.1 mixed part.2) mixed

/-- A mix of the engine `s`, with the talkers `ids` done. -/
structure Mixed (inputs : MixInputs F) (s : AudioEngine D F) (ids : List UInt16) (m : Mix D F) :
    Prop where
  rested : m.engine.Rested
  talkers : ∀ c, m.engine.talkers.find? c =
    if c ∈ ids then (s.talkers.find? c).map (View.afterMix opus) else s.talkers.find? c
  loopbackVoiceId : m.engine.loopbackVoiceId = s.loopbackVoiceId
  playback : m.engine.playback = s.playback
  synthesizer : m.engine.notificationSynthesizer = s.notificationSynthesizer
  mixed : m.mixed =
    addParts (Vector.replicate samplesPerFrame 0) (ids.filterMap (s.heard? opus inputs))
  contributors : m.contributors = (ids.filterMap (s.heard? opus inputs)).length

variable {opus}

section Mixed

variable {inputs : MixInputs F} {s : AudioEngine D F} {ids : List UInt16} {m : Mix D F} {c : UInt16}

omit [AudioFloat F] in
theorem Rested.insert (h : s.Rested) (c : UInt16) {talker : TalkerState D F}
    (htalker : talker.Rested) {s' : AudioEngine D F}
    (htalkers : s'.talkers = s.talkers.insert c talker) : s'.Rested := by
  intro j other hj
  rw [htalkers, OrderedMap.find?_insert] at hj
  split_ifs at hj with heq
  · cases hj
    exact htalker
  · exact h j other hj

theorem addParts_append (mixed : FrameSamples F) (parts parts' : List (F × FrameSamples F)) :
    addParts mixed (parts ++ parts') = addParts (addParts mixed parts) parts' :=
  List.foldl_append

theorem mixed_start (h : s.Rested) (inputs : MixInputs F) : Mixed opus inputs s []
    { engine := s, mixed := Vector.replicate samplesPerFrame 0 } where
  rested := h
  talkers := fun _ => (if_neg List.not_mem_nil).symm
  loopbackVoiceId := rfl
  playback := rfl
  synthesizer := rfl
  mixed := rfl
  contributors := rfl

/-- The next talker of the loop: how the mix goes on, by what the talker gives. -/
theorem Mixed.next (hmixed : Mixed opus inputs s ids m) {engine : AudioEngine D F}
    {part : Option (F × FrameSamples F)} (hpart : s.heard? opus inputs c = part)
    (hrested : engine.Rested)
    (htalkers : ∀ j, engine.talkers.find? j =
      if j = c then (s.talkers.find? c).map (View.afterMix opus) else m.engine.talkers.find? j)
    (hvoice : engine.loopbackVoiceId = m.engine.loopbackVoiceId)
    (hplayback : engine.playback = m.engine.playback)
    (hsynthesizer : engine.notificationSynthesizer = m.engine.notificationSynthesizer) :
    Mixed opus inputs s (ids ++ [c]) {
      engine
      mixed := addParts m.mixed part.toList
      contributors := m.contributors + part.toList.length } where
  rested := hrested
  talkers := by
    intro j
    rw [htalkers j, hmixed.talkers j]
    by_cases hj : j = c
    · subst hj
      simp
    · simp [hj]
  loopbackVoiceId := hvoice.trans hmixed.loopbackVoiceId
  playback := hplayback.trans hmixed.playback
  synthesizer := hsynthesizer.trans hmixed.synthesizer
  mixed := by
    have hlast : [c].filterMap (s.heard? opus inputs) = part.toList := by
      cases part <;> simp [hpart]
    rw [List.filterMap_append, addParts_append, hlast, ← hmixed.mixed]
  contributors := by
    have hlast : [c].filterMap (s.heard? opus inputs) = part.toList := by
      cases part <;> simp [hpart]
    rw [List.filterMap_append, List.length_append, hlast, ← hmixed.contributors]

theorem heard?_eq (inputs : MixInputs F) {talker : TalkerState D F}
    (hfind : s.talkers.find? c = some talker) {decoded : TalkerState D F × Bool}
    (hdecode : talker.decodeFrame opus = .ok decoded) : s.heard? opus inputs c =
      if unheard inputs c then none
      else decoded.1.popFrame.1.map fun part => ((settingsOf inputs c).gain, part) := by
  rw [heard?, View.part, view, hfind, Option.bind_some, hdecode]

/-- **One talker of the mix.** -/
theorem Mixed.mixTalker (h : opus.Documented) (hmixed : Mixed opus inputs s ids m)
    (hnew : c ∉ ids) : Yields (mixTalker opus inputs m c) (Mixed opus inputs s (ids ++ [c])) := by
  have hsame : m.engine.talkers.find? c = s.talkers.find? c := by
    rw [hmixed.talkers, if_neg hnew]
  unfold AudioEngine.mixTalker
  cases hfind : m.engine.talkers.find? c with
  | none =>
    have hnone : s.heard? opus inputs c = none := by
      simp [heard?, View.part, view, ← hsame, hfind]
    refine .ok (hmixed.next hnone hmixed.rested ?_ rfl rfl rfl)
    intro j
    split_ifs with hj
    · rw [hj, hfind, ← hsame, hfind]
      rfl
    · rfl
  | some talker =>
    have htalker : talker.Rested := hmixed.rested c talker hfind
    obtain ⟨decoded, hdecode, hpopped⟩ := TalkerState.yields_decodeFrame h htalker
    have hafter : View.afterMix opus talker = decoded.1.popFrame.2 := by
      rw [View.afterMix, hdecode]
    have hheard := heard?_eq inputs (hsame.symm.trans hfind) hdecode
    have htalkers : ∀ j, (m.engine.talkers.insert c decoded.1.popFrame.2).find? j =
        if j = c then (s.talkers.find? c).map (View.afterMix opus)
        else m.engine.talkers.find? j := by
      intro j
      rw [OrderedMap.find?_insert, ← hsame, hfind, Option.map_some, hafter]
    dsimp only
    rw [if_neg (by simp [Option.isNone_iff_eq_none, Option.isSome_iff_ne_none.1 htalker.decoder]),
      hdecode]
    show Yields (match decoded.1.popFrame.1 with | none => _ | some samples => _) _
    cases hpart : decoded.1.popFrame.1 with
    | none =>
      have hnone : s.heard? opus inputs c = none := by
        rw [hheard, hpart, Option.map_none, ite_self]
      exact .ok (hmixed.next hnone (hmixed.rested.insert c hpopped rfl) htalkers rfl rfl rfl)
    | some samples =>
      rw [hpart, Option.map_some] at hheard
      refine .ite ?_ ?_
      · intro hunheard
        rw [if_pos hunheard] at hheard
        exact .ok (hmixed.next hheard (hmixed.rested.insert c hpopped rfl) htalkers rfl rfl rfl)
      · intro hunheard
        rw [if_neg hunheard] at hheard
        exact .ok (hmixed.next hheard (hmixed.rested.insert c hpopped rfl) htalkers rfl rfl rfl)

/-- The loop over some talkers. -/
theorem Mixed.foldlM (h : opus.Documented) (hmixed : Mixed opus inputs s ids m)
    {more : List UInt16} (hnodup : (ids ++ more).Nodup) :
    Yields (more.foldlM (AudioEngine.mixTalker opus inputs) m)
      (Mixed opus inputs s (ids ++ more)) := by
  induction more generalizing ids m with
  | nil =>
    rw [List.append_nil]
    exact .ok hmixed
  | cons c more ih =>
    have hnew : c ∉ ids := by
      intro hmem
      exact (List.nodup_append.1 hnodup).2.2 c hmem c List.mem_cons_self rfl
    rw [List.foldlM_cons]
    refine (hmixed.mixTalker h hnew).bind ?_
    intro m' hm'
    rw [List.append_cons] at hnodup ⊢
    exact ih hm' hnodup

/-- The samples that a mix delivers. -/
def delivered (inputs : MixInputs F) (s : AudioEngine D F) (opus : Opus D F) : FrameSamples F :=
  let parts := s.talkers.keys.filterMap (s.heard? opus inputs)
  let synthesizer := match inputs.notificationRequested with
    | none => s.notificationSynthesizer
    | some type => s.notificationSynthesizer.start type
  let mixed := mixFrame (addParts (Vector.replicate samplesPerFrame 0) parts) synthesizer
  if parts ≠ [] ∨ mixed.1 then mixed.2.1.map clampSample else mixed.2.1

/-- **A mix.** It returns, and queues the sum of the parts that are heard. -/
theorem yields_mixPlayback (h : opus.Documented) (hrested : s.Rested) (inputs : MixInputs F)
    (deliver : Bool) : Yields (mixPlayback opus inputs deliver s) fun s' =>
      s'.Rested ∧ (∀ c, s'.talkers.find? c = (s.talkers.find? c).map (View.afterMix opus)) ∧
        s'.loopbackVoiceId = s.loopbackVoiceId ∧
        s'.playback = if deliver then s.playback.push (delivered inputs s opus) else s.playback := by
  have hnodup : ([] ++ s.talkers.keys).Nodup := OrderedMap.nodup_keys _
  refine ((mixed_start hrested inputs).foldlM h hnodup).bind ?_
  rw [List.nil_append]
  intro m hm
  have htalkers : ∀ c, m.engine.talkers.find? c =
      (s.talkers.find? c).map (View.afterMix opus) := by
    intro c
    rw [hm.talkers]
    split_ifs with hc
    · rfl
    · cases hfind : s.talkers.find? c with
      | none => rfl
      | some talker => exact absurd (OrderedMap.mem_keys_iff.2 ⟨talker, hfind⟩) hc
  have hcontributors : m.contributors ≠ 0 ↔
      s.talkers.keys.filterMap (s.heard? opus inputs) ≠ [] := by
    rw [hm.contributors, Ne, List.length_eq_zero_iff]
  cases deliver with
  | false => exact .ok ⟨hm.rested, htalkers, hm.loopbackVoiceId, hm.playback⟩
  | true =>
    refine .ok ⟨hm.rested, htalkers, hm.loopbackVoiceId, ?_⟩
    dsimp only
    rw [hm.playback, if_pos rfl]
    unfold delivered
    simp only [hcontributors, hm.mixed, hm.synthesizer]
    rfl

end Mixed

/-! ### The other steps -/

section Packets

variable {s : AudioEngine D F} {new : D}

omit [AudioFloat F] in
theorem rested_push (hrested : s.Rested) (c : UInt16) (frame : IncomingEncodedFrame) (new : D) :
    ∃ talker, View.push new (s.talkers.find? c) frame = some talker ∧ talker.Rested := by
  refine ⟨_, rfl, ?_⟩
  cases hfind : s.talkers.find? c with
  | none => exact (TalkerState.rested_new new).push frame
  | some talker =>
    have htalker := hrested c talker hfind
    exact ⟨⟨rfl, htalker.jitter.push frame, htalker.packet_pos, htalker.packet_le⟩,
      htalker.left_lt⟩

omit [AudioFloat F] in
theorem yields_pushFrame (hcreate : OpusDecoder.create opus = .ok new) (hrested : s.Rested)
    (c : UInt16) (frame : IncomingEncodedFrame) :
    Yields (pushFrame opus c s frame) fun s' => s'.Rested ∧
      (∀ j, s'.talkers.find? j =
        if j = c then View.push new (s.talkers.find? c) frame else s.talkers.find? j) ∧
      s'.loopbackVoiceId = s.loopbackVoiceId ∧ s'.playback = s.playback := by
  obtain ⟨talker, hpush, htalker⟩ := rested_push hrested c frame new
  have hfound : ∀ j, (s.talkers.insert c talker).find? j =
      if j = c then View.push new (s.talkers.find? c) frame else s.talkers.find? j := by
    intro j
    rw [OrderedMap.find?_insert, hpush]
  refine ⟨{ s with talkers := s.talkers.insert c talker }, ?_, hrested.insert c htalker rfl, hfound,
    rfl, rfl⟩
  have htalker := Option.some.inj hpush
  unfold pushFrame
  dsimp only
  cases hdecoder : ((s.talkers.find? c).getD {}).decoder with
  | none =>
    rw [hdecoder] at htalker
    dsimp only
    rw [hcreate, ← htalker]
    rfl
  | some d =>
    rw [hdecoder] at htalker
    rw [← htalker]
    rfl

omit [AudioFloat F] in
theorem rested_erase (hrested : s.Rested) (c : UInt16) : (s.eraseTalker c).Rested := by
  intro j talker hj
  rw [eraseTalker, OrderedMap.find?_erase] at hj
  split_ifs at hj with heq
  exact hrested j talker hj

omit [AudioFloat F] in
theorem foldl_erase (hrested : s.Rested) (resets : List UInt16) :
    (resets.foldl eraseTalker s).Rested ∧
      (∀ j, (resets.foldl eraseTalker s).talkers.find? j =
        if j ∈ resets then none else s.talkers.find? j) ∧
      (resets.foldl eraseTalker s).loopbackVoiceId = s.loopbackVoiceId ∧
      (resets.foldl eraseTalker s).playback = s.playback := by
  induction resets generalizing s with
  | nil => exact ⟨hrested, fun j => (if_neg List.not_mem_nil).symm, rfl, rfl⟩
  | cons c resets ih =>
    obtain ⟨hrested', hfound, hkept⟩ := ih (rested_erase hrested c)
    refine ⟨hrested', ?_, hkept⟩
    intro j
    rw [List.foldl_cons, hfound j, eraseTalker, OrderedMap.find?_erase]
    by_cases hmem : j ∈ resets
    · rw [if_pos hmem, if_pos (List.mem_cons_of_mem c hmem)]
    · simp [hmem]

omit [AudioFloat F] in
theorem foldlM_push (hcreate : OpusDecoder.create opus = .ok new) (hrested : s.Rested)
    (frames : List IncomingEncodedFrame) :
    Yields (frames.foldlM (fun s frame => pushFrame opus frame.clientId s frame) s) fun s' =>
      s'.Rested ∧
      (∀ j, s'.talkers.find? j =
        (frames.filter fun frame => frame.clientId = j).foldl (View.push new)
          (s.talkers.find? j)) ∧
      s'.loopbackVoiceId = s.loopbackVoiceId ∧ s'.playback = s.playback := by
  induction frames generalizing s with
  | nil => exact .ok ⟨hrested, fun j => rfl, rfl, rfl⟩
  | cons frame frames ih =>
    rw [List.foldlM_cons]
    refine (yields_pushFrame hcreate hrested frame.clientId frame).bind ?_
    rintro s' ⟨hrested', hfound, hvoice, hplayback⟩
    refine (ih hrested').mono ?_
    rintro s'' ⟨hrested'', hfound', hvoice', hplayback'⟩
    refine ⟨hrested'', ?_, hvoice'.trans hvoice, hplayback'.trans hplayback⟩
    intro j
    rw [hfound' j, hfound j]
    by_cases hj : frame.clientId = j
    · simp [hj]
    · simp [hj, Ne.symm hj]

end Packets

/-! ### A codec for examples -/

/-- Numbers in place of `float`. -/
instance AudioFloat.rational : AudioFloat ℚ where
  less a b := a < b
  sin := id

/-- A codec with packets of one frame, whose samples are the first byte of the packet. -/
def byteCodec : Opus Unit ℚ where
  create := .ok ()
  decodeFloat data capacity _ d :=
    match data with
    | some (byte :: _) => (.ok (List.replicate (min capacity samplesPerFrame) (byte.toNat : ℚ)), d)
    | some [] => (.error (-4), d)
    | none => (.ok (List.replicate capacity 0), d)
  resetState d := .ok d
  strerror _ := "corrupted stream"

theorem documented_byteCodec : byteCodec.Documented where
  length_le data capacity fec d samples hdecode := by
    rcases data with - | ⟨- | ⟨byte, rest⟩⟩
    · cases hdecode
      simp
    · cases hdecode
    · cases hdecode
      simp
  reset_ok d := ⟨d, rfl⟩

/-- A packet with one byte. -/
def bytePacket (clientId voiceId : UInt16) (byte : UInt8) : IncomingEncodedFrame :=
  { clientId, voiceId, codec := 4, data := [byte] }

/-- The playback of a new engine. -/
def silentPlayback : Playback ℚ where
  current := Vector.replicate samplesPerFrame 0
  queue := {
    data := fun _ => Vector.replicate samplesPerFrame 0
    write_lt := Nat.succ_pos _
    read_lt := Nat.succ_pos _ }
  offset_le := le_rfl

def newEngine : AudioEngine Unit ℚ where
  playback := silentPlayback
  nextMix := 0

theorem rested_newEngine : newEngine.Rested := by
  intro c talker hfind
  cases hfind

/-! ### Runs -/

section Runs

variable {s : AudioEngine D F} {new : D}

/-- What an event, if there is one, does to the talker. -/
def View.after (opus : Opus D F) (new : D) (v : View D F) (event : Option Event) : View D F :=
  event.elim v (v.step opus new)

/-- **One step.** It returns, and each talker sees its own event only. -/
theorem yields_step (h : opus.Documented) (hcreate : OpusDecoder.create opus = .ok new)
    (hrested : s.Rested) (step : Step F) :
    Yields (s.step opus step) fun s' => s'.Rested ∧
      ∀ c, s'.view c = (s.view c).after opus new (step.event? c) := by
  cases step with
  | incoming resets frames =>
    obtain ⟨hrested₁, hfound₁, hvoice₁, -⟩ := foldl_erase hrested resets
    refine (foldlM_push hcreate hrested₁ frames).mono ?_
    rintro s' ⟨hrested₂, hfound₂, hvoice₂, -⟩
    refine ⟨hrested₂, ?_⟩
    intro c
    have hview : s'.view c = (s.view c).step opus new
        (.arrivals (c ∈ resets) (frames.filter fun frame => frame.clientId = c)) := by
      simp only [view, View.step, hfound₂ c, hfound₁ c, hvoice₂, hvoice₁, decide_eq_true_eq]
    rw [hview, Step.event?]
    split_ifs with hevent
    · rfl
    · rw [not_or, not_not] at hevent
      simp [hevent.1, hevent.2, View.step, View.after]
  | loopback data talkStart talkEnd =>
    refine (yields_pushFrame hcreate (show Rested { s with
      loopbackVoiceId := s.loopbackVoiceId + 1 } from hrested) loopbackTalkerId _).mono ?_
    rintro s' ⟨hrested', hfound, hvoice, -⟩
    refine ⟨hrested', ?_⟩
    intro c
    by_cases hc : c = loopbackTalkerId
    · subst hc
      simp [view, View.step, View.after, Step.event?, hfound, hvoice]
    · simp [view, View.after, Step.event?, hfound, hc]
  | eraseLoopback =>
    refine .ok ⟨rested_erase hrested loopbackTalkerId, ?_⟩
    intro c
    by_cases hc : c = loopbackTalkerId
    · subst hc
      simp [view, View.step, View.after, Step.event?, eraseTalker]
    · simp [view, View.after, Step.event?, eraseTalker, hc, OrderedMap.find?_erase]
  | mix inputs deliver =>
    refine (yields_mixPlayback h hrested inputs deliver).mono ?_
    rintro s' ⟨hrested', hfound, hvoice, -⟩
    refine ⟨hrested', ?_⟩
    intro c
    simp only [view, hfound, hvoice]
    rfl
  | render now size => exact .ok ⟨hrested, fun c => rfl⟩

/-- **A run.** It returns, and each talker goes through its own events, as if it were alone. -/
theorem yields_run (h : opus.Documented) (hcreate : OpusDecoder.create opus = .ok new)
    (hrested : s.Rested) (steps : List (Step F)) :
    Yields (s.run opus steps) fun s' => s'.Rested ∧
      ∀ c, s'.view c = (steps.filterMap (Step.event? c)).foldl (View.step opus new) (s.view c) := by
  induction steps generalizing s with
  | nil => exact .ok ⟨hrested, fun c => rfl⟩
  | cons step steps ih =>
    unfold run
    rw [List.foldlM_cons]
    refine (yields_step h hcreate hrested step).bind ?_
    rintro s' ⟨hrested', hview⟩
    refine (ih hrested').mono ?_
    rintro s'' ⟨hrested'', hviews⟩
    refine ⟨hrested'', ?_⟩
    intro c
    rw [hviews c, hview c, List.filterMap_cons]
    cases step.event? c with
    | none => rfl
    | some event => rfl

/-- **Talkers do not disturb each other.** Two runs that bring the same to a talker end with the
same part of it in the next mix, whatever they bring to the others; the next mix queues the sum of
the parts that are heard, with the notification, cut to the range of a sample. -/
theorem part_alike (h : opus.Documented) (hcreate : OpusDecoder.create opus = .ok new)
    (hrested : s.Rested) {s' : AudioEngine D F} (hrested' : s'.Rested) {c : UInt16}
    (hview : s.view c = s'.view c) {steps steps' : List (Step F)}
    (halike : steps.filterMap (Step.event? c) = steps'.filterMap (Step.event? c)) :
    ∃ t t', s.run opus steps = .ok t ∧ s'.run opus steps' = .ok t' ∧
      (t.view c).part opus = (t'.view c).part opus ∧
      ∀ inputs, ∃ mixed, t.mixPlayback opus inputs true = .ok mixed ∧
        mixed.playback = t.playback.push (delivered inputs t opus) := by
  obtain ⟨t, hrun, hrested₁, hviews⟩ := yields_run h hcreate hrested steps
  obtain ⟨t', hrun', -, hviews'⟩ := yields_run h hcreate hrested' steps'
  refine ⟨t, t', hrun, hrun', ?_, ?_⟩
  · rw [hviews c, hviews' c, hview, halike]
  · intro inputs
    obtain ⟨mixed, hmix, -, -, -, hplayback⟩ := yields_mixPlayback h hrested₁ inputs true
    exact ⟨mixed, hmix, hplayback⟩

/-- The packets of client 5, alone, and next to an empty packet of client 7. -/
theorem part_alike_emptyPacket :
    ∃ t t', newEngine.run byteCodec [.incoming [] [bytePacket 5 1 9], .mix {} true] = .ok t ∧
      newEngine.run byteCodec [.incoming [] [{ bytePacket 7 1 9 with data := [] },
        bytePacket 5 1 9], .render 1 480, .mix {} false] = .ok t' ∧
      (t.view 5).part byteCodec = (t'.view 5).part byteCodec ∧
      ∀ inputs, ∃ mixed, t.mixPlayback byteCodec inputs true = .ok mixed ∧
        mixed.playback = t.playback.push (delivered inputs t byteCodec) :=
  part_alike documented_byteCodec rfl rested_newEngine rested_newEngine rfl rfl

/-- The passes that one frame of a talker can take: the packets of a full jitter buffer, the losses
before each of them, and the last one. -/
def maxPasses : ℕ := 4 * VoiceJitterBuffer.maxPendingFrames + VoiceJitterBuffer.maxConsecutiveLosses + 1

/-- **The worker keeps up.** Every run of a new engine returns, whatever arrives. Behind it each
talker has at most 32 packets waiting, less than one packet of samples left over, and a packet
length that the decoder accepts for a recovery; and its next frame takes at most `maxPasses`
passes. -/
theorem talkers_bounded (h : opus.Documented) (hcreate : OpusDecoder.create opus = .ok new)
    (steps : List (Step F)) (playback : Playback F) (nextMix : TimePoint) :
    ∃ t : AudioEngine D F, run opus steps { playback, nextMix } = .ok t ∧
      ∀ c talker, t.talkers.find? c = some talker →
        talker.jitter.pending.size ≤ VoiceJitterBuffer.maxPendingFrames ∧
        talker.decodedSamples.length < maxDecodedSamples ∧
        0 < talker.lastPacketSamples ∧ talker.lastPacketSamples ≤ maxDecodedSamples ∧
        ∃ decoded, talker.decodeLoop opus maxPasses = .ok decoded ∧
          talker.decodeFrame opus = .ok decoded := by
  have hnew : Rested ({ playback, nextMix } : AudioEngine D F) := by
    intro c talker hfind
    cases hfind
  obtain ⟨t, hrun, hrested, -⟩ := yields_run h hcreate hnew steps
  refine ⟨t, hrun, ?_⟩
  intro c talker hfind
  have htalker := hrested c talker hfind
  obtain ⟨decoded, hdecode, -⟩ := TalkerState.yields_decodeFrame h htalker
  have hwork : talker.jitter.work < maxPasses := by
    have hsize := htalker.jitter.size
    unfold VoiceJitterBuffer.work maxPasses
    omega
  refine ⟨htalker.jitter.size, htalker.left_lt, htalker.packet_pos, htalker.packet_le, decoded, ?_,
    hdecode⟩
  rw [TalkerState.decodeLoop_eq h htalker hwork, hdecode]

theorem talkers_bounded_onePacket :
    ∃ t, run byteCodec [.incoming [] [bytePacket 5 1 9], .mix {} true]
        { playback := silentPlayback, nextMix := 0 } = .ok t ∧
      ∀ c talker, t.talkers.find? c = some talker →
        talker.jitter.pending.size ≤ VoiceJitterBuffer.maxPendingFrames ∧
        talker.decodedSamples.length < maxDecodedSamples ∧
        0 < talker.lastPacketSamples ∧ talker.lastPacketSamples ≤ maxDecodedSamples ∧
        ∃ decoded, talker.decodeLoop byteCodec maxPasses = .ok decoded ∧
          talker.decodeFrame byteCodec = .ok decoded :=
  talkers_bounded documented_byteCodec rfl _ silentPlayback 0

end Runs

end AudioEngine

end TsCli
