import TsCli.Client.NetworkRuntime
import TsCli.Session.Connection

/-!
# Live state

The network thread tells the front end what changed: the own channel, the own nickname, and a copy
of the channels and clients. It compares each with what it told last, so that nothing is told twice.
A front end that keeps the last of each event has, after every cycle and at every event of the
session, what the connection has (`replica_current`).

The settings of the talkers, the actions and the audio also push events, and change who is muted;
they are modelled on their own, and an input here.
-/

namespace TsCli

open Exec

/-- `ServerSnapshot`; a `ChannelSnapshot` has the fields of an entry of the tree. -/
structure ServerSnapshot where
  serverName : Bytes := []
  clientId : ℕ := 0
  currentChannelId : ℕ := 0
  channels : List ChannelTreeEntry := []
  clients : List Client := []
  locallyMutedClientIds : List ℕ := []
  deriving DecidableEq

/-- `CaptureServerSnapshot`. -/
def captureServerSnapshot (serverName : Bytes) (session : Session) :
    Except Failure ServerSnapshot := do
  let channels ← session.channels.tree
  return {
    serverName
    clientId := session.clientId
    currentChannelId := session.currentChannelId
    channels
    clients := session.clients.values
  }

/-- `RuntimeEvent`. -/
inductive RuntimeEvent
  /-- `ProtocolEvent`. -/
  | protocol (event : SessionEvent)
  /-- `ActionErrorEvent` and `ActionInfoEvent`. -/
  | action (event : ActionEvent)
  | currentChannelChanged (channelId : ℕ) (name : Bytes)
  | currentNicknameChanged (nickname : Bytes)
  | disconnected (info : DisconnectInfo)
  | serverSnapshot (snapshot : ServerSnapshot)
  | talkState (talkingClientIds : List ℕ)
  deriving DecidableEq

/-- `NetworkRuntime`: what the live state depends on. -/
structure LiveState where
  /-- `m_Connection`. -/
  session : Session := {}
  serverName : Bytes := []
  /-- `m_Audio.MutedTalkers()`. -/
  mutedTalkers : List ℕ := []
  publishLiveState : Bool := false
  currentChannelId : ℕ := 0
  currentNickname : Bytes := []
  lastServerSnapshot : Option ServerSnapshot := none
  /-- What was pushed to `m_EventQueue`. -/
  events : List RuntimeEvent := []

/-- What another part of the runtime does: its events, who is muted behind it, and whether it
throws. -/
structure Work where
  events : List ActionEvent := []
  mutedTalkers : List ℕ := []
  outcome : Except Failure Unit := .ok ()

namespace LiveState

abbrev Program := EStateM Failure LiveState

/-- `m_EventQueue.Push`. -/
def push (event : RuntimeEvent) : Program Unit :=
  modify fun s => { s with events := s.events ++ [event] }

/-- `PublishCurrentChannelIfChanged`. -/
def publishCurrentChannelIfChanged : Program Unit := do
  let s ← get
  let channelId := s.session.currentChannelId
  if channelId = 0 ∨ channelId = s.currentChannelId then
    return ()
  else
    match s.session.channels.channels.find? channelId with
    | none => return ()
    | some channel =>
      modify fun s => { s with currentChannelId := channelId }
      push (.currentChannelChanged channel.id channel.name)

/-- `PublishCurrentNicknameIfChanged`. -/
def publishCurrentNicknameIfChanged : Program Unit := do
  let s ← get
  let nickname := s.session.currentNickname
  if nickname = [] ∨ nickname = s.currentNickname then
    return ()
  else
    modify fun s => { s with currentNickname := nickname }
    push (.currentNicknameChanged nickname)

/-- `PublishServerSnapshotIfChanged`. -/
def publishServerSnapshotIfChanged : Program Unit := do
  let s ← get
  if !s.publishLiveState then
    return ()
  else
    let captured ← lift (captureServerSnapshot s.serverName s.session)
    let snapshot := { captured with locallyMutedClientIds := s.mutedTalkers }
    if s.lastServerSnapshot = some snapshot then
      return ()
    else
      modify fun s => { s with lastServerSnapshot := some snapshot }
      push (.serverSnapshot snapshot)

/-- Another part of the runtime at work. -/
def doWork (work : Work) : Program Unit := do
  modify fun s => { s with
    events := s.events ++ work.events.map .action, mutedTalkers := work.mutedTalkers }
  lift work.outcome

/-- What happens to the runtime. -/
inductive Input
  /-- The connection processed packets. -/
  | received (session : Session) (serverName : Bytes)
  /-- The handler of a session event. -/
  | sessionEvent (event : SessionEvent) (sync : Work)
  /-- The handler of a cycle, with the settings, the actions and the audio. -/
  | cycle (work : Work) (talking : Option (List ℕ))

/-- The part of `Run` for one input. -/
def step : Input → Program Unit
  | .received session serverName => modify fun s => { s with session, serverName }
  | .sessionEvent event sync => do
    publishCurrentChannelIfChanged
    publishCurrentNicknameIfChanged
    doWork sync
    match event with
    | .voice _ => return ()
    | _ =>
      publishServerSnapshotIfChanged
      push (.protocol event)
  | .cycle work talking => do
    publishCurrentChannelIfChanged
    publishCurrentNicknameIfChanged
    doWork work
    publishServerSnapshotIfChanged
    match talking with
    | none => return ()
    | some talkingClientIds => push (.talkState talkingClientIds)

/-- Inputs one after the other. -/
def run (inputs : List Input) : Program Unit := inputs.forM step

/-- The constructor, with `EnableLiveStateEvents` or without. -/
def start (session : Session) (serverName : Bytes) (publishLiveState : Bool) : LiveState where
  session := session
  serverName := serverName
  publishLiveState := publishLiveState
  currentChannelId := session.currentChannelId
  currentNickname := session.currentNickname

/-! ## What the front end has -/

/-- The last of each event. -/
structure Replica where
  channelId : ℕ
  nickname : Bytes
  snapshot : Option ServerSnapshot := none
  deriving DecidableEq

/-- The front end takes an event. -/
def Replica.observe (r : Replica) : RuntimeEvent → Replica
  | .currentChannelChanged channelId _ => { r with channelId }
  | .currentNicknameChanged nickname => { r with nickname }
  | .serverSnapshot snapshot => { r with snapshot := some snapshot }
  | _ => r

/-- What a front end has that was set up with the runtime. -/
def replica (session : Session) (events : List RuntimeEvent) : Replica :=
  events.foldl Replica.observe
    { channelId := session.currentChannelId, nickname := session.currentNickname }

/-- The snapshots among the events. -/
def snapshots (events : List RuntimeEvent) : List ServerSnapshot :=
  events.filterMap fun event =>
    match event with
    | .serverSnapshot snapshot => some snapshot
    | _ => none

/-- The runtime knows what the front end has, and never repeated a snapshot. -/
structure Told (initial : Session) (s : LiveState) : Prop where
  replica : replica initial s.events =
    { channelId := s.currentChannelId, nickname := s.currentNickname
      snapshot := s.lastServerSnapshot }
  changed : (snapshots s.events).IsChain (· ≠ ·)
  last : (snapshots s.events).getLast? = s.lastServerSnapshot

/-- The front end has what the connection has. A channel is not told before it is known. -/
structure Current (initial : Session) (s : LiveState) : Prop where
  channel : s.session.channels.channels.contains s.session.currentChannelId = true →
    s.session.currentChannelId ≠ 0 →
      (replica initial s.events).channelId = s.session.currentChannelId
  nickname : s.session.currentNickname ≠ [] →
    (replica initial s.events).nickname = s.session.currentNickname
  snapshot : s.publishLiveState = true → ∃ captured,
    captureServerSnapshot s.serverName s.session = .ok captured ∧
      (replica initial s.events).snapshot =
        some { captured with locallyMutedClientIds := s.mutedTalkers }

/-! ## What is pushed -/

variable {initial : Session} {s s' : LiveState}

theorem replica_concat (events : List RuntimeEvent) (event : RuntimeEvent) :
    replica initial (events ++ [event]) = (replica initial events).observe event := by
  unfold replica
  rw [List.foldl_append]
  rfl

theorem snapshots_append (events more : List RuntimeEvent) :
    snapshots (events ++ more) = snapshots events ++ snapshots more := by
  unfold snapshots
  exact List.filterMap_append

theorem told_start (session : Session) (serverName : Bytes) (publishLiveState : Bool) :
    Told session (start session serverName publishLiveState) :=
  ⟨rfl, List.isChain_nil, rfl⟩

/-- Events that change nothing in the front end. -/
theorem told_others {more : List RuntimeEvent} (h : Told initial s)
    (hmore : ∀ event ∈ more, ∀ r : Replica, r.observe event = r)
    (hevents : s'.events = s.events ++ more) (hchannel : s'.currentChannelId = s.currentChannelId)
    (hnickname : s'.currentNickname = s.currentNickname)
    (hsnapshot : s'.lastServerSnapshot = s.lastServerSnapshot) : Told initial s' := by
  have hreplica : replica initial s'.events = replica initial s.events := by
    rw [hevents]
    clear hevents
    induction more using List.reverseRecOn with
    | nil => rw [List.append_nil]
    | append_singleton more event ih =>
      rw [← List.append_assoc, replica_concat, hmore event (by simp),
        ih fun e he => hmore e (List.mem_append_left _ he)]
  have hnone : snapshots more = [] := by
    unfold snapshots
    rw [List.filterMap_eq_nil_iff]
    intro event hevent
    cases event with
    | serverSnapshot snapshot =>
      have hobserve := hmore _ hevent { channelId := 0, nickname := [], snapshot := none }
      cases hobserve
    | protocol | action | currentChannelChanged | currentNicknameChanged | disconnected
    | talkState => rfl
  have hsame : snapshots s'.events = snapshots s.events := by
    rw [hevents, snapshots_append, hnone, List.append_nil]
  refine ⟨?_, ?_, ?_⟩
  · rw [hreplica, h.replica, hchannel, hnickname, hsnapshot]
  · rw [hsame]
    exact h.changed
  · rw [hsame, h.last, hsnapshot]

/-- What the handlers leave alone. -/
structure Keeps (s s' : LiveState) : Prop where
  session : s'.session = s.session
  serverName : s'.serverName = s.serverName
  publishLiveState : s'.publishLiveState = s.publishLiveState

theorem Keeps.refl (s : LiveState) : Keeps s s := ⟨rfl, rfl, rfl⟩

theorem Keeps.trans {s'' : LiveState} (h : Keeps s s') (h' : Keeps s' s'') : Keeps s s'' :=
  ⟨h'.session.trans h.session, h'.serverName.trans h.serverName,
    h'.publishLiveState.trans h.publishLiveState⟩

/-- The own channel was told, if it can be. -/
def ChannelTold (s : LiveState) : Prop :=
  s.session.channels.channels.contains s.session.currentChannelId = true →
    s.session.currentChannelId ≠ 0 → s.currentChannelId = s.session.currentChannelId

/-- The own nickname was told, if there is one. -/
def NicknameTold (s : LiveState) : Prop :=
  s.session.currentNickname ≠ [] → s.currentNickname = s.session.currentNickname

/-- The snapshot was told. -/
def SnapshotTold (s : LiveState) : Prop :=
  s.publishLiveState = true → ∃ captured,
    captureServerSnapshot s.serverName s.session = .ok captured ∧
      s.lastServerSnapshot = some { captured with locallyMutedClientIds := s.mutedTalkers }

theorem publishCurrentChannel_spec (h : Told initial s)
    (hrun : publishCurrentChannelIfChanged s = .ok () s') :
    Told initial s' ∧ Keeps s s' ∧ ChannelTold s' := by
  unfold publishCurrentChannelIfChanged at hrun
  rw [run_get_bind, run_ite] at hrun
  by_cases hsame : s.session.currentChannelId = 0 ∨ s.session.currentChannelId = s.currentChannelId
  · rw [if_pos hsame] at hrun
    cases hrun
    refine ⟨h, .refl s, ?_⟩
    intro _ hne
    exact (hsame.resolve_left hne).symm
  · rw [if_neg hsame] at hrun
    cases hfind : s.session.channels.channels.find? s.session.currentChannelId with
    | none =>
      rw [hfind] at hrun
      cases hrun
      refine ⟨h, .refl s, ?_⟩
      intro hknown
      obtain ⟨channel, hchannel⟩ := Registry.contains_iff.1 hknown
      rw [hfind] at hchannel
      cases hchannel
    | some channel =>
      rw [hfind] at hrun
      cases hrun
      have hid : channel.id = s.session.currentChannelId := Registry.key_of_find? hfind
      refine ⟨⟨?_, ?_, ?_⟩, ⟨rfl, rfl, rfl⟩, fun _ _ => rfl⟩
      · rw [replica_concat, h.replica]
        dsimp only [Replica.observe]
        rw [hid]
      · rw [snapshots_append]
        simpa [snapshots] using h.changed
      · rw [snapshots_append]
        simpa [snapshots] using h.last

theorem publishCurrentNickname_spec (h : Told initial s)
    (hrun : publishCurrentNicknameIfChanged s = .ok () s') :
    Told initial s' ∧ Keeps s s' ∧ s'.currentChannelId = s.currentChannelId ∧ NicknameTold s' := by
  unfold publishCurrentNicknameIfChanged at hrun
  rw [run_get_bind, run_ite] at hrun
  by_cases hsame : s.session.currentNickname = [] ∨ s.session.currentNickname = s.currentNickname
  · rw [if_pos hsame] at hrun
    cases hrun
    refine ⟨h, .refl s, rfl, ?_⟩
    intro hne
    exact (hsame.resolve_left hne).symm
  · rw [if_neg hsame] at hrun
    cases hrun
    refine ⟨⟨?_, ?_, ?_⟩, ⟨rfl, rfl, rfl⟩, rfl, fun _ => rfl⟩
    · rw [replica_concat, h.replica]
      rfl
    · rw [snapshots_append]
      simpa [snapshots] using h.changed
    · rw [snapshots_append]
      simpa [snapshots] using h.last

theorem publishServerSnapshot_spec (h : Told initial s)
    (hrun : publishServerSnapshotIfChanged s = .ok () s') :
    Told initial s' ∧ Keeps s s' ∧ s'.currentChannelId = s.currentChannelId ∧
      s'.currentNickname = s.currentNickname ∧ SnapshotTold s' := by
  unfold publishServerSnapshotIfChanged at hrun
  rw [run_get_bind, run_ite] at hrun
  by_cases hquiet : (!s.publishLiveState) = true
  · rw [if_pos hquiet] at hrun
    cases hrun
    refine ⟨h, .refl s, rfl, rfl, ?_⟩
    intro hlive
    rw [hlive] at hquiet
    cases hquiet
  · rw [if_neg hquiet, run_lift_bind_eq_ok_iff] at hrun
    obtain ⟨captured, hcaptured, hrun⟩ := hrun
    rw [run_ite] at hrun
    by_cases hsame : s.lastServerSnapshot =
        some { captured with locallyMutedClientIds := s.mutedTalkers }
    · rw [if_pos hsame] at hrun
      cases hrun
      exact ⟨h, .refl s, rfl, rfl, fun _ => ⟨captured, hcaptured, hsame⟩⟩
    · rw [if_neg hsame] at hrun
      cases hrun
      refine ⟨⟨?_, ?_, ?_⟩, ⟨rfl, rfl, rfl⟩, rfl, rfl, fun _ => ⟨captured, hcaptured, rfl⟩⟩
      · rw [replica_concat, h.replica]
        rfl
      · rw [snapshots_append]
        refine List.IsChain.append h.changed (List.isChain_singleton _) ?_
        intro last hlast snapshot hsnapshot
        rw [h.last] at hlast
        cases hsnapshot
        rintro rfl
        exact hsame hlast
      · rw [snapshots_append]
        exact List.getLast?_concat

theorem doWork_spec {work : Work} (h : Told initial s) (hrun : doWork work s = .ok () s') :
    Told initial s' ∧ Keeps s s' ∧ s'.currentChannelId = s.currentChannelId ∧
      s'.currentNickname = s.currentNickname := by
  obtain ⟨_, s₁, hmodify, hrun⟩ := (run_bind_eq_ok_iff _).1 hrun
  cases hmodify
  cases houtcome : work.outcome with
  | error e =>
    rw [houtcome] at hrun
    cases hrun
  | ok _ =>
    rw [houtcome] at hrun
    cases hrun
    refine ⟨told_others h ?_ rfl rfl rfl rfl, ⟨rfl, rfl, rfl⟩, rfl, rfl⟩
    intro event hevent r
    obtain ⟨action, -, rfl⟩ := List.mem_map.1 hevent
    rfl

theorem push_spec {event : RuntimeEvent} (h : Told initial s)
    (hevent : ∀ r : Replica, r.observe event = r) (hrun : push event s = .ok () s') :
    Told initial s' ∧ s' = { s with events := s.events ++ [event] } := by
  cases hrun
  refine ⟨told_others h ?_ rfl rfl rfl rfl, rfl⟩
  intro e he
  rw [List.mem_singleton.1 he]
  exact hevent

/-- What is told is what the front end has. -/
theorem Told.current (h : Told initial s) (hchannel : ChannelTold s) (hnickname : NicknameTold s)
    (hsnapshot : SnapshotTold s) : Current initial s := by
  constructor
  · intro hknown hne
    rw [h.replica]
    exact hchannel hknown hne
  · intro hne
    rw [h.replica]
    exact hnickname hne
  · intro hlive
    rw [h.replica]
    exact hsnapshot hlive

/-- The three publications around some work, as both handlers make them. -/
theorem published {work : Work} {s₁ s₂ s₃ s₄ : LiveState} (h : Told initial s)
    (hchannel : publishCurrentChannelIfChanged s = .ok () s₁)
    (hnickname : publishCurrentNicknameIfChanged s₁ = .ok () s₂) (hwork : doWork work s₂ = .ok () s₃)
    (hsnapshot : publishServerSnapshotIfChanged s₃ = .ok () s₄) :
    Told initial s₄ ∧ ChannelTold s₄ ∧ NicknameTold s₄ ∧ SnapshotTold s₄ := by
  obtain ⟨h₁, hkeeps₁, hchannelTold⟩ := publishCurrentChannel_spec h hchannel
  obtain ⟨h₂, hkeeps₂, hid₂, hnicknameTold⟩ := publishCurrentNickname_spec h₁ hnickname
  obtain ⟨h₃, hkeeps₃, hid₃, hname₃⟩ := doWork_spec h₂ hwork
  obtain ⟨h₄, hkeeps₄, hid₄, hname₄, hsnapshotTold⟩ := publishServerSnapshot_spec h₃ hsnapshot
  refine ⟨h₄, ?_, ?_, hsnapshotTold⟩
  · unfold ChannelTold
    rw [hid₄, hid₃, hid₂, (hkeeps₂.trans (hkeeps₃.trans hkeeps₄)).session]
    exact hchannelTold
  · unfold NicknameTold
    rw [hname₄, hname₃, (hkeeps₃.trans hkeeps₄).session]
    exact hnicknameTold

/-- An input after which the front end is to have everything. -/
def Settles : Input → Prop
  | .received _ _ => False
  | .sessionEvent event _ => ∀ frame, event ≠ .voice frame
  | .cycle _ _ => True

/-- One input. -/
theorem step_spec {input : Input} (h : Told initial s) (hrun : step input s = .ok () s') :
    Told initial s' ∧ (Settles input → Current initial s') := by
  cases input with
  | received session serverName =>
    cases hrun
    exact ⟨⟨h.replica, h.changed, h.last⟩, False.elim⟩
  | cycle work talking =>
    obtain ⟨_, s₁, hchannel, hrun⟩ := (run_bind_eq_ok_iff _).1 hrun
    obtain ⟨_, s₂, hnickname, hrun⟩ := (run_bind_eq_ok_iff _).1 hrun
    obtain ⟨_, s₃, hwork, hrun⟩ := (run_bind_eq_ok_iff _).1 hrun
    obtain ⟨_, s₄, hsnapshot, hrun⟩ := (run_bind_eq_ok_iff _).1 hrun
    obtain ⟨h₄, hchannelTold, hnicknameTold, hsnapshotTold⟩ :=
      published h hchannel hnickname hwork hsnapshot
    cases talking with
    | none =>
      cases hrun
      exact ⟨h₄, fun _ => h₄.current hchannelTold hnicknameTold hsnapshotTold⟩
    | some talkingClientIds =>
      obtain ⟨h', rfl⟩ := push_spec h₄ (fun _ => rfl) hrun
      exact ⟨h', fun _ => h'.current hchannelTold hnicknameTold hsnapshotTold⟩
  | sessionEvent event sync =>
    obtain ⟨_, s₁, hchannel, hrun⟩ := (run_bind_eq_ok_iff _).1 hrun
    obtain ⟨_, s₂, hnickname, hrun⟩ := (run_bind_eq_ok_iff _).1 hrun
    obtain ⟨_, s₃, hwork, hrun⟩ := (run_bind_eq_ok_iff _).1 hrun
    have hshown (hrun : (do publishServerSnapshotIfChanged; push (.protocol event) : Program Unit) s₃ =
        .ok () s') : Told initial s' ∧ (Settles (.sessionEvent event sync) → Current initial s') := by
      obtain ⟨_, s₄, hsnapshot, hrun⟩ := (run_bind_eq_ok_iff _).1 hrun
      obtain ⟨h₄, hchannelTold, hnicknameTold, hsnapshotTold⟩ :=
        published h hchannel hnickname hwork hsnapshot
      obtain ⟨h', rfl⟩ := push_spec h₄ (fun _ => rfl) hrun
      exact ⟨h', fun _ => h'.current hchannelTold hnicknameTold hsnapshotTold⟩
    cases event with
    | voice frame =>
      cases hrun
      obtain ⟨h₁, -, -⟩ := publishCurrentChannel_spec h hchannel
      obtain ⟨h₂, -, -, -⟩ := publishCurrentNickname_spec h₁ hnickname
      obtain ⟨h₃, -, -, -⟩ := doWork_spec h₂ hwork
      exact ⟨h₃, fun hsettles => absurd rfl (hsettles frame)⟩
    | textMessage | clientPresence | commandError | poke => exact hshown hrun

theorem told_run {inputs : List Input} (h : Told initial s) (hrun : run inputs s = .ok () s') :
    Told initial s' := by
  induction inputs generalizing s with
  | nil =>
    cases hrun
    exact h
  | cons input inputs ih =>
    obtain ⟨_, s₁, hstep, hrun⟩ := (run_bind_eq_ok_iff _).1 hrun
    exact ih (step_spec h hstep).1 hrun

/-- **The front end has what the connection has**: at every event of the session that it is told,
and at the end of every cycle, the last events of a run add up to the own channel, once it is known,
to the own nickname, and to the channels, the clients and who is muted. No snapshot is told twice in
a row. -/
theorem replica_current {session : Session} {serverName : Bytes} {publishLiveState : Bool}
    {inputs : List Input} {input : Input}
    (hrun : run inputs (start session serverName publishLiveState) = .ok () s)
    (hstep : step input s = .ok () s') (hsettles : Settles input) :
    Current session s' ∧ (snapshots s'.events).IsChain (· ≠ ·) := by
  have h := told_run (told_start session serverName publishLiveState) hrun
  obtain ⟨htold, hcurrent⟩ := step_spec h hstep
  exact ⟨hcurrent hsettles, htold.changed⟩

/-- The own client is in a channel, under a name. -/
def joinedSession : Session where
  clientId := 1
  currentChannelId := 5
  currentNickname := [0x6e]
  channels := { channels := (∅ : Registry Channel.id).upsert { id := 5, name := [0x63] } }

theorem replica_current_joined :
    let cycle := step (.cycle {} none)
    let s := final (run [.received joinedSession []]) (start {} [] true)
    Current {} (final cycle s) ∧ (snapshots (final cycle s).events).IsChain (· ≠ ·) :=
  replica_current (eq_ok_of_returned? (by decide +kernel)) (eq_ok_of_returned? (by decide +kernel))
    trivial

end LiveState

end TsCli
