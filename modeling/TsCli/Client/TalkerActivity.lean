import TsCli.Audio.TransmitPath
import TsCli.Lib.Exec
import TsCli.Lib.LastSeen
import TsCli.Lib.OrderedMap
import TsCli.Session.VoiceWireCodec
import TsCli.Lib.SerialNumber

/-!
# Who is talking

`TalkerActivity` keeps the time of the last voice packet of each talking client. The network runtime
tells it of incoming voice and of its own frames, collects in a flag whether the set has changed, and
publishes the set at the end of a cycle, after it has taken out the clients that were silent for too
long.

The clock is steady: each reading is some time after the one before. What calls into the audio
engine and the connection return is an input of a cycle. A log that no definition reads keeps the
packets that were observed and the ends of the cycles.
-/

namespace TsCli

open Exec LastSeen

/-- `TalkerActivity::Timeout`, in nanoseconds. -/
def talkTimeout : ℤ := 500 * 1000000

/-- `MaxEncodedBytes`. -/
def maxEncodedBytes : ℕ := 484

structure TalkerActivity where
  lastPacket : OrderedMap UInt16 TimePoint := ∅
  deriving DecidableEq

namespace TalkerActivity

/-- `TalkerActivity::Observe`: whether the set of talking clients changed. -/
def observe (a : TalkerActivity) (clientId : UInt16) (talkEnd : Bool) (now : TimePoint) :
    Bool × TalkerActivity :=
  if talkEnd then (a.lastPacket.contains clientId, { lastPacket := a.lastPacket.erase clientId })
  else (!a.lastPacket.contains clientId, { lastPacket := a.lastPacket.insert clientId now })

/-- `TalkerActivity::Expire`. -/
def expire (a : TalkerActivity) (now : TimePoint) : Bool × TalkerActivity :=
  (a.lastPacket.entries.any fun entry => ¬ now - entry.2 < talkTimeout,
    { lastPacket := a.lastPacket.filter fun _ lastPacket => now - lastPacket < talkTimeout })

/-- `TalkerActivity::Talking`. -/
def talking (a : TalkerActivity) : List UInt16 := a.lastPacket.keys

end TalkerActivity

/-- The events of the runtime that carry talk states and failures of the audio. -/
inductive TalkEvent
  /-- `TalkStateEvent`. -/
  | talkState (talkingClientIds : List UInt16)
  /-- `ActionErrorEvent`. -/
  | actionError (message : String)
  deriving DecidableEq

/-- A frame that `TryPopOutgoing` yields, with what sending it comes to and the client id of the
connection then. `elapsed` is the time until the clock is read. -/
structure OutgoingVoice where
  transmitRevision : ℕ
  talkEnd : Bool
  sendVoice : Except String Unit
  clientId : UInt16
  elapsed : ℕ

/-- What a cycle finds in the audio engine. -/
structure AudioCycle where
  /-- `status.available`. -/
  available : Bool
  /-- `status.playbackMuted`. -/
  playbackMuted : Bool
  transmitChange : Option TransmitStateChange
  setAudioState : Except String Unit
  outgoing : List OutgoingVoice

/-- What the network runtime keeps for the talk state. -/
structure TalkRuntime where
  clock : TimePoint
  publishLiveState : Bool := false
  talkerActivity : TalkerActivity := {}
  talkStateChanged : Bool := false
  audioStatePublished : Bool := false
  audioAvailable : Bool := false
  audioTransmitEnabled : Bool := false
  audioPlaybackMuted : Bool := false
  audioTransmitRevision : ℕ := 0
  events : List TalkEvent := []
  log : List (Mark UInt16) := []

namespace TalkRuntime

/-- `m_TalkStateChanged = m_TalkerActivity.Observe( … ) || m_TalkStateChanged`, when live state is
published. -/
def observe (clientId : UInt16) (talkEnd : Bool) (elapsed : ℕ) (s : TalkRuntime) : TalkRuntime :=
  if s.publishLiveState then
    let now := s.clock + elapsed
    let (changed, talkerActivity) := s.talkerActivity.observe clientId talkEnd now
    { s with
      clock := now
      talkerActivity
      talkStateChanged := changed || s.talkStateChanged
      log := s.log ++ [if talkEnd then .left clientId now else .seen clientId now] }
  else s

/-- `NetworkRuntime::ProcessVoiceEvent`. -/
def processVoiceEvent (frame : VoiceFrame) (elapsed : ℕ) (s : TalkRuntime) : TalkRuntime :=
  if maxEncodedBytes < frame.data.length then s
  else s.observe frame.clientId frame.talkEnd elapsed

/-- The loop of `NetworkRuntime::ProcessAudio`. -/
def sendFrames : List OutgoingVoice → EStateM String TalkRuntime Unit
  | [] => return
  | frame :: frames => do
    let s ← get
    if frame.transmitRevision ≠ s.audioTransmitRevision then
      sendFrames frames
    else if !s.audioTransmitEnabled && !frame.talkEnd then
      sendFrames frames
    else
      lift frame.sendVoice
      modify (observe frame.clientId frame.talkEnd frame.elapsed)
      sendFrames frames

/-- What `ProcessAudio` keeps of the transmit state. -/
def adoptTransmitChange (change : Option TransmitStateChange) (s : TalkRuntime) : TalkRuntime :=
  match change with
  | none => s
  | some change => { s with
      audioTransmitEnabled := change.enabled
      audioTransmitRevision := change.revision }

/-- The `try` block of `NetworkRuntime::ProcessAudio`. -/
def tryProcessAudio (audio : AudioCycle) : EStateM String TalkRuntime Unit := do
  modify (adoptTransmitChange audio.transmitChange)
  let s ← get
  if !s.audioStatePublished || audio.available != s.audioAvailable || audio.transmitChange.isSome ||
      audio.playbackMuted != s.audioPlaybackMuted then
    lift audio.setAudioState
    modify fun s => { s with
      audioStatePublished := true
      audioAvailable := audio.available
      audioPlaybackMuted := audio.playbackMuted }
  sendFrames audio.outgoing

/-- `NetworkRuntime::ProcessAudio`. -/
def processAudio (audio : AudioCycle) (s : TalkRuntime) : TalkRuntime :=
  match tryProcessAudio audio s with
  | .ok _ s => s
  | .error what s => { s with events := s.events ++ [.actionError ("audio: " ++ what)] }

/-- `NetworkRuntime::PublishTalkStateIfChanged`. -/
def publishTalkStateIfChanged (elapsed : ℕ) (s : TalkRuntime) : TalkRuntime :=
  if !s.publishLiveState then s
  else
    let now := s.clock + elapsed
    let (expired, talkerActivity) := s.talkerActivity.expire now
    let s := { s with clock := now, talkerActivity, log := s.log ++ [.swept now] }
    if !expired && !s.talkStateChanged then s
    else { s with
      talkStateChanged := false
      events := s.events ++ [.talkState s.talkerActivity.talking] }

/-- A voice event, or a cycle. -/
inductive Step
  | voice (frame : VoiceFrame) (elapsed : ℕ)
  | cycle (audio : AudioCycle) (elapsed : ℕ)

def step (s : TalkRuntime) : Step → TalkRuntime
  | .voice frame elapsed => s.processVoiceEvent frame elapsed
  | .cycle audio elapsed => (s.processAudio audio).publishTalkStateIfChanged elapsed

/-- `EnableLiveStateEvents`, then the run. -/
def run (start : TimePoint) (steps : List Step) : TalkRuntime :=
  steps.foldl step { clock := start, publishLiveState := true }

/-- The talking sets that were published. -/
def published (s : TalkRuntime) : List (List UInt16) :=
  s.events.filterMap fun
    | .talkState talkingClientIds => some talkingClientIds
    | .actionError _ => none

/-- The talking set that was published last. -/
def lastPublished (s : TalkRuntime) : List UInt16 := s.published.getLast?.getD []

/-- Since the last sweep of the log a client has started or ended. -/
inductive ChangedSince : List (Mark UInt16) → Prop
  | change {log : List (Mark UInt16)} {mark : Mark UInt16} (hmark : ∀ time, mark ≠ .swept time)
      (h : Changes talkTimeout log mark) : ChangedSince (log ++ [mark])
  | keep {log : List (Mark UInt16)} {mark : Mark UInt16} (hmark : ∀ time, mark ≠ .swept time)
      (h : ChangedSince log) : ChangedSince (log ++ [mark])

/-- The invariant of the runtime. -/
structure Inv (s : TalkRuntime) : Prop where
  live : s.publishLiveState = true
  table : ∀ clientId, s.talkerActivity.lastPacket.find? clientId =
    lastSign talkTimeout s.log clientId
  sorted : (s.log.map Mark.time).Pairwise (· ≤ ·)
  times_le : ∀ mark ∈ s.log, mark.time ≤ s.clock
  unchanged : s.talkStateChanged = false →
    ∀ clientId, clientId ∈ s.lastPublished ↔ Present talkTimeout s.log clientId
  changed : s.talkStateChanged = true → ChangedSince s.log

/-! ## The table -/

theorem find?_observe (a : TalkerActivity) (clientId : UInt16) (talkEnd : Bool) (now : TimePoint)
    (key : UInt16) : (a.observe clientId talkEnd now).2.lastPacket.find? key =
      update talkTimeout key (a.lastPacket.find? key)
        (if talkEnd then .left clientId now else .seen clientId now) := by
  unfold TalkerActivity.observe
  cases talkEnd with
  | true =>
    show (a.lastPacket.erase clientId).find? key = if clientId = key then none else _
    rw [OrderedMap.find?_erase]
    simp only [eq_comm]
  | false =>
    show (a.lastPacket.insert clientId now).find? key = if clientId = key then some now else _
    rw [OrderedMap.find?_insert]
    simp only [eq_comm]

theorem find?_expire (a : TalkerActivity) (now : TimePoint) (key : UInt16) :
    (a.expire now).2.lastPacket.find? key =
      update talkTimeout key (a.lastPacket.find? key) (.swept now) :=
  OrderedMap.find?_filter _ _ _

/-- A packet changes the set exactly when it starts or ends a talk. -/
theorem changes_of_observe {a : TalkerActivity} {log : List (Mark UInt16)}
    (h : ∀ key, a.lastPacket.find? key = lastSign talkTimeout log key) {clientId : UInt16}
    {talkEnd : Bool} {now : TimePoint} (hchanged : (a.observe clientId talkEnd now).1 = true) :
    Changes talkTimeout log (if talkEnd then .left clientId now else .seen clientId now) := by
  unfold TalkerActivity.observe at hchanged
  cases talkEnd with
  | true =>
    obtain ⟨last, hlast⟩ := OrderedMap.contains_iff.1 hchanged
    refine .ended now ?_
    rw [Present, ← h, hlast]
    exact Option.some_ne_none last
  | false =>
    have hnone : a.lastPacket.find? clientId = none :=
      OrderedMap.contains_eq_false_iff.1 (by simpa using hchanged)
    refine .started now fun hpresent => hpresent ?_
    rw [← h, hnone]

theorem present_of_observe {a : TalkerActivity} {log : List (Mark UInt16)}
    (h : ∀ key, a.lastPacket.find? key = lastSign talkTimeout log key) {clientId : UInt16}
    {talkEnd : Bool} {now : TimePoint} (hsame : (a.observe clientId talkEnd now).1 = false)
    (key : UInt16) : Present talkTimeout
      (log ++ [if talkEnd then .left clientId now else .seen clientId now]) key ↔
        Present talkTimeout log key := by
  unfold Present
  rw [lastSign_concat]
  unfold TalkerActivity.observe at hsame
  cases talkEnd with
  | true =>
    have hnone : lastSign talkTimeout log clientId = none := by
      rw [← h]
      exact OrderedMap.contains_eq_false_iff.1 hsame
    by_cases hkey : clientId = key
    · subst hkey
      simp [update, hnone]
    · simp [update, hkey]
  | false =>
    obtain ⟨last, hlast⟩ := OrderedMap.contains_iff.1 (by simpa using hsame)
    rw [h] at hlast
    by_cases hkey : clientId = key
    · subst hkey
      simp [update, hlast]
    · simp [update, hkey]

theorem expire_iff (a : TalkerActivity) (now : TimePoint) : (a.expire now).1 = true ↔
    ∃ clientId last, a.lastPacket.find? clientId = some last ∧ talkTimeout ≤ now - last := by
  unfold TalkerActivity.expire
  simp only [List.any_eq_true, decide_eq_true_eq, not_lt, OrderedMap.find?_eq_some_iff]
  exact ⟨fun ⟨entry, hentry, hold⟩ => ⟨entry.1, entry.2, hentry, hold⟩,
    fun ⟨clientId, last, hentry, hold⟩ => ⟨(clientId, last), hentry, hold⟩⟩

/-! ## The invariant -/

theorem inv_start (start : TimePoint) :
    Inv ({ clock := start, publishLiveState := true } : TalkRuntime) where
  live := rfl
  table _ := rfl
  sorted := .nil
  times_le := nofun
  unchanged _ _ := ⟨nofun, fun h => absurd rfl h⟩
  changed := nofun

theorem pairwise_concat {log : List (Mark UInt16)} {mark : Mark UInt16} {now : TimePoint}
    (hsorted : (log.map Mark.time).Pairwise (· ≤ ·)) (hle : ∀ m ∈ log, m.time ≤ now)
    (hmark : mark.time = now) : ((log ++ [mark]).map Mark.time).Pairwise (· ≤ ·) := by
  rw [List.map_append, List.pairwise_append]
  refine ⟨hsorted, List.pairwise_singleton _ _, fun time htime time' htime' => ?_⟩
  obtain ⟨m, hm, rfl⟩ := List.mem_map.1 htime
  rw [List.map_singleton, List.mem_singleton] at htime'
  rw [htime', hmark]
  exact hle m hm

theorem times_le_concat {log : List (Mark UInt16)} {mark : Mark UInt16} {clock now : TimePoint}
    (hle : ∀ m ∈ log, m.time ≤ clock) (hnow : clock ≤ now) (hmark : mark.time = now) :
    ∀ m ∈ log ++ [mark], m.time ≤ now := by
  intro m hm
  rcases List.mem_append.1 hm with hm | hm
  · exact (hle m hm).trans hnow
  · rw [List.mem_singleton.1 hm, hmark]

/-- What moves the invariant along, and publishes nothing. -/
structure Quiet (s s' : TalkRuntime) : Prop where
  inv : Inv s → Inv s'
  published_eq : s'.published = s.published

theorem Quiet.refl (s : TalkRuntime) : Quiet s s := ⟨id, rfl⟩

theorem Quiet.trans {s s' s'' : TalkRuntime} (h : Quiet s s') (h' : Quiet s' s'') : Quiet s s'' :=
  ⟨fun hs => h'.inv (h.inv hs), h'.published_eq.trans h.published_eq⟩

/-- **One packet**: the flag is set when the set of talking clients changes. -/
theorem quiet_observe (clientId : UInt16) (talkEnd : Bool) (elapsed : ℕ) (s : TalkRuntime) :
    Quiet s (s.observe clientId talkEnd elapsed) := by
  unfold observe
  by_cases hlive : s.publishLiveState = true
  · rw [if_pos hlive]
    refine ⟨fun h => ?_, rfl⟩
    have hnow : s.clock ≤ s.clock + elapsed := by
      have := Int.natCast_nonneg elapsed
      linarith
    have hmark : (if talkEnd then Mark.left clientId (s.clock + elapsed)
        else .seen clientId (s.clock + elapsed)).time = s.clock + elapsed := by
      cases talkEnd <;> rfl
    have hsweep : ∀ time, (if talkEnd then Mark.left clientId (s.clock + elapsed)
        else .seen clientId (s.clock + elapsed)) ≠ .swept time := by
      cases talkEnd <;> exact fun _ => nofun
    refine ⟨hlive, fun key => ?_, ?_, ?_, fun hflag key => ?_, fun hflag => ?_⟩
    · show (s.talkerActivity.observe clientId talkEnd (s.clock + elapsed)).2.lastPacket.find? key = _
      rw [find?_observe, lastSign_concat, h.table]
    · exact pairwise_concat h.sorted (fun m hm => (h.times_le m hm).trans hnow) hmark
    · exact times_le_concat h.times_le hnow hmark
    · obtain ⟨hsame, hbefore⟩ := Bool.or_eq_false_iff.1 hflag
      rw [present_of_observe h.table hsame]
      exact h.unchanged hbefore key
    · rcases Bool.or_eq_true_iff.1 hflag with hchanged | hbefore
      · exact .change hsweep (changes_of_observe h.table hchanged)
      · exact .keep hsweep (h.changed hbefore)
  · rw [if_neg hlive]
    exact .refl s

theorem quiet_sendFrames (frames : List OutgoingVoice) : Moves Quiet (sendFrames frames) := by
  have htrans : ∀ a b c : TalkRuntime, Quiet a b → Quiet b c → Quiet a c :=
    fun _ _ _ => Quiet.trans
  induction frames with
  | nil => exact .pure Quiet.refl _
  | cons frame frames ih =>
    refine .bind htrans (Moves.get (R := Quiet) Quiet.refl) fun s => ?_
    refine .ite _ ih (.ite _ ih ?_)
    refine .bind htrans (.lift Quiet.refl _) fun _ => ?_
    refine .bind htrans (.modify ?_) fun _ => ih
    exact quiet_observe frame.clientId frame.talkEnd frame.elapsed

/-- The fields of the audio state do not matter. -/
theorem quiet_adoptTransmitChange (change : Option TransmitStateChange) (s : TalkRuntime) :
    Quiet s (s.adoptTransmitChange change) := by
  cases change with
  | none => exact .refl s
  | some change =>
    exact ⟨fun h => ⟨h.live, h.table, h.sorted, h.times_le, h.unchanged, h.changed⟩, rfl⟩

theorem quiet_tryProcessAudio (audio : AudioCycle) : Moves Quiet (tryProcessAudio audio) := by
  have htrans : ∀ a b c : TalkRuntime, Quiet a b → Quiet b c → Quiet a c :=
    fun _ _ _ => Quiet.trans
  refine .bind htrans (.modify (quiet_adoptTransmitChange audio.transmitChange)) fun _ => ?_
  refine .bind htrans (Moves.get (R := Quiet) Quiet.refl) fun s => ?_
  refine .ite _ ?_ (quiet_sendFrames _)
  refine .bind htrans (.lift Quiet.refl _) fun _ => ?_
  refine .bind htrans (.modify fun s => ?_) fun _ => quiet_sendFrames _
  exact ⟨fun h => ⟨h.live, h.table, h.sorted, h.times_le, h.unchanged, h.changed⟩, rfl⟩

/-- The audio of a cycle publishes no talk state, whether it fails or not. -/
theorem quiet_processAudio (audio : AudioCycle) (s : TalkRuntime) : Quiet s (s.processAudio audio) := by
  have hfinal := (quiet_tryProcessAudio audio).final s
  unfold processAudio
  cases hrun : tryProcessAudio audio s with
  | ok u s' => rwa [final_of_eq_ok hrun] at hfinal
  | error what s' =>
    rw [final_of_eq_error hrun] at hfinal
    have hpublished : ({ s' with events := s'.events ++ [.actionError ("audio: " ++ what)] } :
        TalkRuntime).published = s'.published := by
      unfold published
      rw [List.filterMap_append]
      exact List.append_nil _
    refine hfinal.trans ⟨fun h => ?_, hpublished⟩
    refine ⟨h.live, h.table, h.sorted, h.times_le, fun hflag key => ?_, h.changed⟩
    rw [lastPublished, hpublished]
    exact h.unchanged hflag key

/-! ## The end of a cycle -/

/-- What the end of a cycle leaves behind. -/
structure Published (s s' : TalkRuntime) : Prop where
  log_eq : s'.log = s.log ++ [.swept s'.clock]
  exact : ∀ clientId, clientId ∈ s'.lastPublished ↔ Present talkTimeout s'.log clientId
  caused : s'.published ≠ s.published →
    Changes talkTimeout s.log (.swept s'.clock) ∨ ChangedSince s.log

theorem mem_talking {a : TalkerActivity} {log : List (Mark UInt16)}
    (h : ∀ key, a.lastPacket.find? key = lastSign talkTimeout log key) (clientId : UInt16) :
    clientId ∈ a.talking ↔ Present talkTimeout log clientId := by
  rw [TalkerActivity.talking, OrderedMap.mem_keys_iff, h, Present, Option.ne_none_iff_exists']

theorem lastPublished_append (s : TalkRuntime) (talkingClientIds : List UInt16) :
    ({ s with events := s.events ++ [.talkState talkingClientIds] } : TalkRuntime).lastPublished =
      talkingClientIds := by
  unfold lastPublished published
  rw [List.filterMap_append]
  show ((s.events.filterMap _ ++ [talkingClientIds]).getLast?).getD [] = _
  rw [List.getLast?_concat, Option.getD_some]

/-- Without an expiry, a sweep keeps everybody. -/
theorem present_swept {a : TalkerActivity} {log : List (Mark UInt16)} {now : TimePoint}
    (h : ∀ key, a.lastPacket.find? key = lastSign talkTimeout log key)
    (hyoung : (a.expire now).1 = false) (key : UInt16) :
    Present talkTimeout (log ++ [.swept now]) key ↔ Present talkTimeout log key := by
  have hnone := mt (expire_iff a now).2 (by rw [hyoung]; exact Bool.false_ne_true)
  unfold Present
  rw [lastSign_concat, update]
  cases hlast : lastSign talkTimeout log key with
  | none => rfl
  | some last =>
    have hlt : now - last < talkTimeout := by
      by_contra hold
      exact hnone ⟨key, last, (h key).trans hlast, not_lt.1 hold⟩
    rw [Option.filter_some, if_pos (by simpa using hlt)]

/-- **The end of a cycle** publishes the set of talking clients when it is another one. -/
theorem publishTalkStateIfChanged_spec {s : TalkRuntime} (h : Inv s) (elapsed : ℕ) :
    Inv (s.publishTalkStateIfChanged elapsed) ∧
      Published s (s.publishTalkStateIfChanged elapsed) := by
  have hnow : s.clock ≤ s.clock + elapsed := by
    have := Int.natCast_nonneg elapsed
    linarith
  have htable : ∀ key, (s.talkerActivity.expire (s.clock + elapsed)).2.lastPacket.find? key =
      lastSign talkTimeout (s.log ++ [.swept (s.clock + elapsed)]) key := fun key => by
    rw [find?_expire, lastSign_concat, h.table]
  have htime : (Mark.swept (s.clock + elapsed) : Mark UInt16).time = s.clock + elapsed := rfl
  have hsorted := pairwise_concat h.sorted (fun m hm => (h.times_le m hm).trans hnow) htime
  have hle := times_le_concat h.times_le hnow htime
  unfold publishTalkStateIfChanged
  rw [h.live]
  simp only [Bool.not_true, Bool.false_eq_true, if_false]
  split_ifs with hquiet
  · -- nothing expired, and nothing changed before
    simp only [Bool.and_eq_true, Bool.not_eq_eq_eq_not, Bool.not_true] at hquiet
    obtain ⟨hyoung, hflag⟩ := hquiet
    have hexact := fun clientId => (h.unchanged hflag clientId).trans
      (present_swept h.table hyoung clientId).symm
    refine ⟨⟨rfl, htable, hsorted, hle, fun _ => hexact, fun hflag' => ?_⟩, rfl, hexact,
      fun hne => absurd rfl hne⟩
    exact absurd (hflag.symm.trans hflag') Bool.false_ne_true
  · have hexact : ∀ clientId, clientId ∈
        (s.talkerActivity.expire (s.clock + elapsed)).2.talking ↔ Present talkTimeout
          (s.log ++ [.swept (s.clock + elapsed)]) clientId := mem_talking htable
    refine ⟨⟨rfl, htable, hsorted, hle, fun _ clientId => ?_, nofun⟩, rfl, fun clientId => ?_,
      fun _ => ?_⟩
    · rw [← hexact]
      exact iff_of_eq (congrArg (clientId ∈ ·) (lastPublished_append _ _))
    · rw [← hexact]
      exact iff_of_eq (congrArg (clientId ∈ ·) (lastPublished_append _ _))
    · by_cases hexpired : (s.talkerActivity.expire (s.clock + elapsed)).1 = true
      · obtain ⟨clientId, last, hlast, hold⟩ := (expire_iff _ _).1 hexpired
        exact .inl (.expired ((h.table clientId).symm.trans hlast) hold)
      · have hflag : s.talkStateChanged = true := by
          simpa [Bool.not_eq_true _ ▸ hexpired] using hquiet
        exact .inr (h.changed hflag)

/-! ## Runs -/

theorem inv_step {s : TalkRuntime} (h : Inv s) (next : Step) : Inv (s.step next) := by
  cases next with
  | voice frame elapsed =>
    show Inv (s.processVoiceEvent frame elapsed)
    unfold processVoiceEvent
    split_ifs
    · exact h
    · exact (quiet_observe _ _ _ s).inv h
  | cycle audio elapsed =>
    exact (publishTalkStateIfChanged_spec ((quiet_processAudio audio s).inv h) elapsed).1

theorem inv_run (start : TimePoint) (steps : List Step) : Inv (run start steps) := by
  induction steps using List.reverseRecOn with
  | nil => exact inv_start start
  | append_singleton steps next ih =>
    rw [run, List.foldl_append]
    exact inv_step ih next

/-- **The published talking set is exact.** At the end of every cycle it holds the clients whose
latest observed packet was no talk-end and is less than the timeout old. Only a cycle publishes it,
and only when since the cycle before a client has started, ended or expired. -/
theorem published_exact (start : TimePoint) (steps : List Step) :
    (∀ audio elapsed clientId,
      clientId ∈ (run start (steps ++ [.cycle audio elapsed])).lastPublished ↔
        ∃ time, latest (run start (steps ++ [.cycle audio elapsed])).log clientId =
            some (true, time) ∧
          (run start (steps ++ [.cycle audio elapsed])).clock - time < talkTimeout) ∧
      ∀ next, (run start (steps ++ [next])).published ≠ (run start steps).published →
        ∃ audio elapsed log, next = .cycle audio elapsed ∧
          (run start (steps ++ [next])).log =
            log ++ [.swept (run start (steps ++ [next])).clock] ∧
          (Changes talkTimeout log (.swept (run start (steps ++ [next])).clock) ∨
            ChangedSince log) := by
  have hinv := inv_run start steps
  have hrun : ∀ next, run start (steps ++ [next]) = (run start steps).step next := fun next => by
    rw [run, List.foldl_append]
    rfl
  refine ⟨fun audio elapsed clientId => ?_, fun next hne => ?_⟩
  · rw [hrun]
    obtain ⟨hend, hpublished⟩ :=
      publishTalkStateIfChanged_spec ((quiet_processAudio audio _).inv hinv) elapsed
    show clientId ∈ (((run start steps).processAudio audio).publishTalkStateIfChanged
      elapsed).lastPublished ↔ _
    have hsorted := hend.sorted
    rw [hpublished.log_eq] at hsorted
    rw [hpublished.exact, Present, Option.ne_none_iff_exists', hpublished.log_eq]
    refine (exists_congr fun time => lastSign_swept (by decide) hsorted).trans ?_
    rw [← hpublished.log_eq]
    rfl
  · rw [hrun] at hne ⊢
    cases next with
    | voice frame elapsed =>
      refine absurd ?_ hne
      show ((run start steps).processVoiceEvent frame elapsed).published = _
      unfold processVoiceEvent
      split_ifs
      · rfl
      · exact (quiet_observe _ _ _ _).published_eq
    | cycle audio elapsed =>
      have hquiet := quiet_processAudio audio (run start steps)
      obtain ⟨-, hpublished⟩ := publishTalkStateIfChanged_spec (hquiet.inv hinv) elapsed
      refine ⟨audio, elapsed, _, rfl, hpublished.log_eq, hpublished.caused fun heq => hne ?_⟩
      exact heq.trans hquiet.published_eq

/-- A cycle without anything to send. -/
def idleCycle : AudioCycle where
  available := true
  playbackMuted := false
  transmitChange := none
  setAudioState := .ok ()
  outgoing := []

/-- The first packet of a client, and a cycle. -/
theorem published_exact_first :
    let steps : List Step := [.voice { clientId := 7 } 3]
    let next : Step := .cycle idleCycle 20
    7 ∈ (run 0 (steps ++ [next])).lastPublished ∧
      ∃ audio elapsed log, next = .cycle audio elapsed ∧
        (run 0 (steps ++ [next])).log = log ++ [.swept (run 0 (steps ++ [next])).clock] ∧
        (Changes talkTimeout log (.swept (run 0 (steps ++ [next])).clock) ∨ ChangedSince log) :=
  ⟨((published_exact 0 _).1 idleCycle 20 7).2 ⟨3, by decide +kernel, by decide +kernel⟩,
    (published_exact 0 _).2 _ (by decide +kernel)⟩

/-- The client falls silent: it is taken out once its packet is 500 ms old. -/
example : (run 0 [.voice { clientId := 7 } 3, .cycle idleCycle 20,
    .cycle idleCycle (500 * 1000000)]).published = [[7], []] := by
  decide +kernel

end TalkRuntime

end TsCli
