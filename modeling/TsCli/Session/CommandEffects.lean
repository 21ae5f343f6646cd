import TsCli.Crypto.BootstrapCrypto
import TsCli.Session.Session

/-!
# What a command does

A command about clients rewrites the clients and the own channel; every other one leaves them as
they are, but for the clients that are forgotten with a channel.
-/

namespace TsCli

namespace Session

open Exec

/-- The channel in a client record, zero without one. -/
def recordedChannelId (existing : Option Client) : ℕ := (existing.map Client.channelId).getD 0

/-- The record has details. -/
def known (existing : Option Client) : Bool := existing.any Client.detailsKnown

/-- The presence event in an event. -/
def presence? : SessionEvent → Option ClientPresenceEvent
  | .clientPresence event => some event
  | _ => none

/-- The presence events, in order. -/
def presenceEvents (s : Session) : List ClientPresenceEvent := s.events.filterMap presence?

/-- Nothing about the clients changes. -/
structure Quiet (s s' : Session) : Prop where
  clientId : s'.clientId = s.clientId
  currentChannelId : s'.currentChannelId = s.currentChannelId
  clients : s'.clients = s.clients
  serverRemoval : s'.serverRemoval = s.serverRemoval
  initialStateComplete : s'.initialStateComplete = s.initialStateComplete
  presenceEvents : s'.presenceEvents = s.presenceEvents

namespace Quiet

theorem refl (s : Session) : Quiet s s := ⟨rfl, rfl, rfl, rfl, rfl, rfl⟩

theorem trans {s s' s'' : Session} (h : Quiet s s') (h' : Quiet s' s'') : Quiet s s'' where
  clientId := h'.clientId.trans h.clientId
  currentChannelId := h'.currentChannelId.trans h.currentChannelId
  clients := h'.clients.trans h.clients
  serverRemoval := h'.serverRemoval.trans h.serverRemoval
  initialStateComplete := h'.initialStateComplete.trans h.initialStateComplete
  presenceEvents := h'.presenceEvents.trans h.presenceEvents

theorem foldl {α : Type} {f : Session → α → Session} (h : ∀ s a, Quiet s (f s a)) (l : List α)
    (s : Session) : Quiet s (l.foldl f s) := by
  induction l generalizing s with
  | nil => exact refl s
  | cons a l ih => exact (h s a).trans (ih (f s a))

theorem append_events (s : Session) {event : SessionEvent} (h : presence? event = none) :
    Quiet s { s with events := s.events ++ [event] } := by
  refine ⟨rfl, rfl, rfl, rfl, rfl, ?_⟩
  unfold Session.presenceEvents
  simp [h]

end Quiet

section Moves

variable {α β : Type}

theorem moves_onTransport (m : EStateM Failure SessionTransport α) :
    Moves Quiet (onTransport m) := Moves.zoom (fun _ _ => ⟨rfl, rfl, rfl, rfl, rfl, rfl⟩) m

theorem moves_onChannels (m : EStateM Failure ChannelStore α) :
    Moves Quiet (onChannels m) := Moves.zoom (fun _ _ => ⟨rfl, rfl, rfl, rfl, rfl, rfl⟩) m

theorem moves_lift_bind (x : Except Failure α) {f : α → Program β} (h : ∀ a, Moves Quiet (f a)) :
    Moves Quiet (lift x >>= f) :=
  Moves.bind (R := Quiet) (fun _ _ _ h h' => h.trans h') (Moves.lift Quiet.refl x) h

theorem moves_bind {m : Program α} {f : α → Program β} (hm : Moves Quiet m)
    (hf : ∀ a, Moves Quiet (f a)) : Moves Quiet (m >>= f) :=
  Moves.bind (R := Quiet) (fun _ _ _ h h' => h.trans h') hm hf

theorem moves_subscribeChannel (env : Environment) (channelId : ℕ) :
    Moves Quiet (subscribeChannel env channelId) :=
  moves_lift_bind _ fun _ => moves_bind (moves_onTransport _) fun _ => Moves.pure Quiet.refl _

end Moves

/-- What a command can do to the clients. -/
inductive Effect (command : Command) (s : Session) : Session → Prop
  | entered {entries : List ClientEnterViewEntry} (h : parseClientEnterView command = .ok entries) :
    Effect command s (s.enterView entries)
  | moved {entries : List ClientMovedEntry} (h : parseClientMoved command = .ok entries) :
    Effect command s (s.moved entries)
  | left {entries : List ClientLeftViewEntry} (h : parseClientLeftView command = .ok entries) :
    Effect command s (s.leftView entries)
  | updated {entries : List ClientUpdatedEntry} (h : parseClientUpdated command = .ok entries) :
    Effect command s (s.updated entries)
  | subscription {subscription : ChannelSubscriptionState}
    (h : ChannelSubscriptionState.parse command = .ok subscription) :
    Effect command s (s.applySubscription subscription)
  | deleted {deleted : ChannelDeleted} (h : ChannelDeleted.parse command = .ok deleted) :
    Effect command s (s.channelDeleted deleted)
  | quiet {s' : Session} (h : Quiet s s') : Effect command s s'

/-- A branch that parses the command and then rewrites the state. -/
theorem effect_parse {α : Type} {x : Except Failure α} {f : α → Session → Session}
    {command : Command} {s : Session} (h : ∀ a, x = .ok a → Effect command s (f a s)) :
    Effect command s (final (lift x >>= fun a => modify (f a) : Program Unit) s) := by
  cases hx : x with
  | ok a =>
    rw [final_lift_bind_ok rfl]
    exact h a hx
  | error e =>
    rw [final_lift_bind_error rfl]
    exact .quiet (.refl s)

/-- A branch that does not touch the clients. -/
theorem effect_moves {command : Command} {s : Session} {m : Program Unit} (h : Moves Quiet m) :
    Effect command s (final m s) := .quiet (h.final s)

theorem effect_ite {command : Command} {s : Session} {c : Prop} [Decidable c] {m n : Program Unit}
    (hm : Effect command s (final m s)) (hn : Effect command s (final n s)) :
    Effect command s (final (if c then m else n) s) := by
  rw [final_ite]
  split
  · exact hm
  · exact hn

/-- **What one command can do.** -/
theorem effect_step (env : Environment) (s : Session) (command : Command) :
    Effect command s (step env s command) := by
  unfold step processCommand
  -- one branch for each name, in the order of the source
  refine effect_ite (effect_moves (Moves.modify fun s => ⟨rfl, rfl, rfl, rfl, rfl, rfl⟩)) ?_
  refine effect_ite (effect_moves (moves_lift_bind _ fun _ => moves_onChannels _)) ?_
  refine effect_ite (effect_parse fun _ h => .subscription h) ?_
  refine effect_ite (effect_moves (moves_lift_bind _ fun _ => moves_bind (moves_onChannels _) fun _ =>
    moves_bind (Moves.get Quiet.refl) fun s => Moves.ite _ (moves_subscribeChannel env _)
      (Moves.pure Quiet.refl _))) ?_
  refine effect_ite (effect_parse fun _ h => .deleted h) ?_
  refine effect_ite (effect_moves (moves_lift_bind _ fun _ => moves_onChannels _)) ?_
  refine effect_ite (effect_moves (moves_lift_bind _ fun _ => moves_onChannels _)) ?_
  refine effect_ite (effect_parse fun _ h => .entered h) ?_
  refine effect_ite (effect_parse fun _ h => .moved h) ?_
  refine effect_ite (effect_parse fun _ h => .left h) ?_
  refine effect_ite (effect_parse fun _ h => .updated h) ?_
  refine effect_ite (effect_parse fun entries _ => .quiet (Quiet.foldl ?_ entries s)) ?_
  · intro s entry
    unfold commandResultRow
    split
    · exact .refl s
    · exact .append_events s rfl
  refine effect_ite (effect_parse fun entries _ => .quiet (Quiet.foldl ?_ entries s)) ?_
  · exact fun s entry => .append_events s rfl
  refine effect_ite (effect_parse fun _ _ => .quiet (.append_events s rfl)) ?_
  exact effect_moves (Moves.pure Quiet.refl _)

/-! ## Rows -/

section Rows

variable {s : Session}

theorem emitPresence_eq (kind : ClientPresenceKind) (clientId channelId : ℕ) (clientName : Bytes)
    (s : Session) : ∃ events, s.emitPresence kind clientId channelId clientName =
      { s with events } := by
  unfold emitPresence
  split
  · exact ⟨s.events, rfl⟩
  · split
    · exact ⟨s.events, rfl⟩
    · exact ⟨_, rfl⟩

/-- A row of another client only emits an event. -/
theorem enterViewRow_of_ne {entry : ClientEnterViewEntry} (h : entry.id ≠ s.clientId) :
    ∃ events, enterViewRow s entry = { s with events } := by
  unfold enterViewRow
  rw [if_neg h]
  dsimp only
  split_ifs <;> first | exact emitPresence_eq .. | exact ⟨s.events, rfl⟩

theorem movedRow_of_ne {entry : ClientMovedEntry} (h : entry.id ≠ s.clientId) :
    ∃ events, movedRow s entry = { s with events } := by
  unfold movedRow
  dsimp only
  rw [if_neg h]
  split_ifs <;> first | exact emitPresence_eq .. | exact ⟨s.events, rfl⟩

theorem leftViewRow_of_ne {entry : ClientLeftViewEntry} (h : entry.id ≠ s.clientId) :
    ∃ events, leftViewRow s entry = { s with events } := by
  unfold leftViewRow
  rw [if_neg h]
  dsimp only
  split_ifs <;> first | exact emitPresence_eq .. | exact ⟨s.events, rfl⟩

theorem movedRow_of_own {entry : ClientMovedEntry} (h : entry.id = s.clientId) :
    movedRow s entry = s.enterChannel entry.channelId := by
  unfold movedRow
  dsimp only
  rw [if_pos h]

theorem leftViewRow_of_own {entry : ClientLeftViewEntry} (h : entry.id = s.clientId) :
    leftViewRow s entry = s.leaveTo entry := by
  unfold leftViewRow
  rw [if_pos h]

@[simp] theorem clientId_enterChannel (channelId : ℕ) (s : Session) :
    (s.enterChannel channelId).clientId = s.clientId := by
  unfold enterChannel; split <;> rfl

@[simp] theorem serverRemoval_enterChannel (channelId : ℕ) (s : Session) :
    (s.enterChannel channelId).serverRemoval = s.serverRemoval := by
  unfold enterChannel; split <;> rfl

@[simp] theorem currentChannelId_enterChannel (channelId : ℕ) (s : Session) :
    (s.enterChannel channelId).currentChannelId =
      if channelId = 0 then s.currentChannelId else channelId := by
  unfold enterChannel; split <;> rfl

theorem enterViewRow_of_own {entry : ClientEnterViewEntry} (h : entry.id = s.clientId) :
    ∃ currentNickname, enterViewRow s entry =
      { s.enterChannel entry.channelId with currentNickname } := by
  unfold enterViewRow
  rw [if_pos h]
  dsimp only
  split_ifs
  · exact ⟨_, rfl⟩
  · exact ⟨_, rfl⟩

theorem clientId_enterViewRow (s : Session) (entry : ClientEnterViewEntry) :
    (enterViewRow s entry).clientId = s.clientId := by
  by_cases h : entry.id = s.clientId
  · obtain ⟨currentNickname, hrow⟩ := enterViewRow_of_own h
    rw [hrow]
    exact clientId_enterChannel _ s
  · obtain ⟨events, hrow⟩ := enterViewRow_of_ne h
    rw [hrow]

theorem clientId_movedRow (s : Session) (entry : ClientMovedEntry) :
    (movedRow s entry).clientId = s.clientId := by
  by_cases h : entry.id = s.clientId
  · rw [movedRow_of_own h, clientId_enterChannel]
  · obtain ⟨events, hrow⟩ := movedRow_of_ne h
    rw [hrow]

theorem foldl_clientId {ε : Type} {row : Session → ε → Session}
    (hid : ∀ s entry, (row s entry).clientId = s.clientId) (entries : List ε)
    (s : Session) : (entries.foldl row s).clientId = s.clientId := by
  induction entries generalizing s with
  | nil => rfl
  | cons entry entries ih => rw [List.foldl_cons, ih, hid]

end Rows

/-! ## Updates -/

section Updated

theorem recordedChannelId_update (clients : ClientStore) (entry : ClientUpdatedEntry) (c : ℕ) :
    recordedChannelId ((clients.update entry).find? c) = recordedChannelId (clients.find? c) := by
  rw [ClientStore.find?_update]
  by_cases h : c = entry.id
  · rw [if_pos h, h]
    cases clients.find? entry.id <;> rfl
  · rw [if_neg h]

theorem known_update (clients : ClientStore) (entry : ClientUpdatedEntry) (c : ℕ) :
    known ((clients.update entry).find? c) = known (clients.find? c) := by
  rw [ClientStore.find?_update]
  by_cases h : c = entry.id
  · rw [if_pos h, h]
    cases clients.find? entry.id <;> rfl
  · rw [if_neg h]

theorem recordedChannelId_applyUpdated (entries : List ClientUpdatedEntry) (clients : ClientStore)
    (c : ℕ) : recordedChannelId ((ClientStore.applyUpdated entries clients).find? c) =
      recordedChannelId (clients.find? c) := by
  unfold ClientStore.applyUpdated
  induction entries generalizing clients with
  | nil => rfl
  | cons entry entries ih => rw [List.foldl_cons, ih, recordedChannelId_update]

theorem known_applyUpdated (entries : List ClientUpdatedEntry) (clients : ClientStore) (c : ℕ) :
    known ((ClientStore.applyUpdated entries clients).find? c) = known (clients.find? c) := by
  unfold ClientStore.applyUpdated
  induction entries generalizing clients with
  | nil => rfl
  | cons entry entries ih => rw [List.foldl_cons, ih, known_update]

/-- The rows change a nickname at most. -/
theorem foldl_updatedRow (entries : List ClientUpdatedEntry) (s : Session) :
    ∃ currentNickname, entries.foldl updatedRow s = { s with currentNickname } := by
  induction entries generalizing s with
  | nil => exact ⟨s.currentNickname, rfl⟩
  | cons entry entries ih =>
    obtain ⟨currentNickname, hrow⟩ : ∃ currentNickname, updatedRow s entry =
        { s with currentNickname } := by
      unfold updatedRow
      split_ifs
      · exact ⟨_, rfl⟩
      · exact ⟨s.currentNickname, rfl⟩
    obtain ⟨currentNickname', hrest⟩ := ih (updatedRow s entry)
    rw [List.foldl_cons, hrest, hrow]
    exact ⟨currentNickname', rfl⟩

theorem updated_eq (entries : List ClientUpdatedEntry) (s : Session) :
    ∃ currentNickname, s.updated entries =
      { s with currentNickname, clients := ClientStore.applyUpdated entries s.clients } := by
  obtain ⟨currentNickname, hrows⟩ := foldl_updatedRow entries s
  refine ⟨currentNickname, ?_⟩
  unfold updated
  rw [hrows]

end Updated

/-! ## A session to run -/

/-- A network that works, under the recorded crypto. -/
def workingNetwork : Environment where
  crypto := recordedCrypto
  sendErrors _ := none
  clock ticks := ticks

/-- The own client is 1, and shares channel 5 with client 2. Channel 6 is not subscribed. -/
def lobby : Session where
  clientId := 1
  currentChannelId := 5
  channels :=
    { channels := ((∅ : Registry Channel.id).upsert { id := 5 }).upsert { id := 6, orderAfterId := 5 }
      subscribedChannels := {5} }
  clients := ((∅ : ClientStore).upsert { id := 1, channelId := 5, detailsKnown := true }).upsert
    { id := 2, channelId := 5, detailsKnown := true }
  initialStateComplete := true

/-- A row of parameters with plain values. -/
def rowOf (parameters : List (String × String)) : CommandRow :=
  parameters.map fun parameter => ⟨ascii parameter.1, ascii parameter.2⟩

/-- The server has the channels 5 and 6, and puts the own client into the first. -/
def snapshotOfServer : List Command := [
  { name := ascii "channellist", rows := [
    rowOf [("cid", "5"), ("cpid", "0"), ("channel_order", "0"), ("channel_name", "a")],
    rowOf [("cid", "6"), ("cpid", "0"), ("channel_order", "5"), ("channel_name", "b")]] },
  { name := ascii "notifycliententerview", rows := [
    rowOf [("clid", "1"), ("ctid", "5"), ("client_nickname", "a")]] },
  { name := ascii "channellistfinished", rows := [] }]

/-- The session behind that login. -/
def loggedIn : Session :=
  final (finishLogin workingNetwork [] snapshotOfServer) { clientId := 1 }

theorem finishLogin_loggedIn :
    finishLogin workingNetwork [] snapshotOfServer { clientId := 1 } = .ok () loggedIn :=
  eq_ok_of_returned? (by decide +kernel)

end Session

end TsCli
