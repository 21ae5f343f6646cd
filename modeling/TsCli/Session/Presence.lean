import TsCli.Lib.Runs
import TsCli.Session.BatchedRows

/-!
# Presence

The presence events about another client are decided from the record that the store has before the
whole command, and the store then applies rules of its own: a placeholder keeps its channel, a
client that leaves to a subscribed channel is moved. `Consistent` says which rows make both agree.
In a run of such commands, with the own client in one channel, a client joins and leaves in turn,
and every event says where the store has it (`presence_alternates`).
-/

namespace TsCli

namespace Session

open Exec

/-- The store places the client in the channel, with known details. -/
def Present (X : ℕ) (existing : Option Client) : Prop :=
  recordedChannelId existing = X ∧ known existing

instance (X : ℕ) (existing : Option Client) : Decidable (Present X existing) :=
  inferInstanceAs (Decidable (_ ∧ _))

/-! ## Which rows agree with the store -/

section Rows

variable (X : ℕ) (subscribed : Prop) (existing : Option Client)

/-- The client stays where it is, in the channel or outside. -/
def EnterIdle (entry : ClientEnterViewEntry) : Prop :=
  if recordedChannelId existing = X then
    known existing ∧ (entry.channelId = 0 ∨ entry.channelId = X)
  else entry.channelId ≠ X

instance (entry : ClientEnterViewEntry) : Decidable (EnterIdle X existing entry) :=
  inferInstanceAs (Decidable (ite _ _ _))

/-- A client that is known in the channel is not entered elsewhere, and a placeholder in some channel
is entered there, or both are outside. -/
def EnterFits (entry : ClientEnterViewEntry) : Prop :=
  (Present X existing → entry.channelId = 0 ∨ entry.channelId = X) ∧
    (known existing = false → recordedChannelId existing ≠ 0 → entry.channelId ≠ 0 →
      (entry.channelId = X ↔ recordedChannelId existing = X))

instance (entry : ClientEnterViewEntry) : Decidable (EnterFits X existing entry) :=
  inferInstanceAs (Decidable (_ ∧ _))

def MovedIdle (entry : ClientMovedEntry) : Prop :=
  entry.channelId = X ↔ recordedChannelId existing = X

instance (entry : ClientMovedEntry) : Decidable (MovedIdle X existing entry) :=
  inferInstanceAs (Decidable (_ ↔ _))

/-- A placeholder is not moved out of the channel. -/
def MovedFits (entry : ClientMovedEntry) : Prop :=
  known existing = false → recordedChannelId existing = X → entry.channelId = X

instance (entry : ClientMovedEntry) : Decidable (MovedFits X existing entry) :=
  inferInstanceAs (Decidable (_ → _))

def LeftIdle (entry : ClientLeftViewEntry) : Prop :=
  if recordedChannelId existing = X then entry.toChannelId = X ∧ subscribed
  else entry.toChannelId ≠ X ∧ (existing = none → entry.fromChannelId ≠ X)

instance [Decidable subscribed] (entry : ClientLeftViewEntry) :
    Decidable (LeftIdle X subscribed existing entry) := inferInstanceAs (Decidable (ite _ _ _))

/-- A client that is known in the channel leaves it, or stays while it is subscribed; one that is
known outside does not leave to the channel while it is subscribed; without details, or without a
record, a client does not leave the channel. -/
def LeftFits (entry : ClientLeftViewEntry) : Prop :=
  (Present X existing → if entry.toChannelId = X then subscribed
    else entry.fromChannelId = 0 ∨ entry.fromChannelId = X) ∧
  (recordedChannelId existing ≠ X → known existing → entry.toChannelId = X → ¬ subscribed) ∧
  (recordedChannelId existing = X → known existing = false → entry.toChannelId ≠ X →
    entry.fromChannelId ≠ 0 ∧ entry.fromChannelId ≠ X) ∧
  (existing = none → entry.fromChannelId = X → entry.toChannelId = X)

instance [Decidable subscribed] (entry : ClientLeftViewEntry) :
    Decidable (LeftFits X subscribed existing entry) := inferInstanceAs (Decidable (_ ∧ _))

end Rows

/-- The last row about a client fits, and those before it are idle. -/
def RowsFit {ε : Type} (idle fits : ε → Prop) (rows : List ε) : Prop :=
  (∀ entry ∈ rows.dropLast, idle entry) ∧ ∀ entry ∈ rows.getLast?, fits entry

instance {ε : Type} (idle fits : ε → Prop) [DecidablePred idle] [DecidablePred fits]
    (rows : List ε) : Decidable (RowsFit idle fits rows) := inferInstanceAs (Decidable (_ ∧ _))

/-- The channel is subscribed, or a row takes the own client there. -/
def SubscribedBehind (X : ℕ) (s : Session) (entries : List ClientLeftViewEntry) : Prop :=
  X ∈ s.channels.subscribedChannels ∨
    ∃ entry ∈ entries, entry.id = s.clientId ∧ entry.toChannelId = X ∧ X ≠ 0

instance (X : ℕ) (s : Session) (entries : List ClientLeftViewEntry) :
    Decidable (SubscribedBehind X s entries) := inferInstanceAs (Decidable (_ ∨ _))

/-- What a parser returns, if it does, satisfies a decidable predicate. -/
instance {α : Type} (x : Except Failure α) (P : α → Prop) [DecidablePred P] :
    Decidable (∀ a, x = .ok a → P a) :=
  match x with
  | .ok a => decidable_of_iff (P a) ⟨fun h a' heq => by cases heq; exact h, fun h => h a rfl⟩
  | .error _ => .isTrue nofun

/-- The rows about client `c` agree with what the store makes of them, and the channel is not
unsubscribed while `c` is known in it. -/
def Consistent (c X : ℕ) (s : Session) (command : Command) : Prop :=
  let existing := s.clients.find? c
  (∀ entries, parseClientEnterView command = .ok entries →
    RowsFit (EnterIdle X existing) (EnterFits X existing) (entries.filter fun entry => entry.id = c)) ∧
  (∀ entries, parseClientMoved command = .ok entries →
    RowsFit (MovedIdle X existing) (MovedFits X existing) (entries.filter fun entry => entry.id = c)) ∧
  (∀ entries, parseClientLeftView command = .ok entries →
    RowsFit (LeftIdle X (SubscribedBehind X s entries) existing)
      (LeftFits X (SubscribedBehind X s entries) existing)
      (entries.filter fun entry => entry.id = c)) ∧
  ∀ subscription, ChannelSubscriptionState.parse command = .ok subscription →
    subscription.subscribed = false → X ∈ subscription.entries → ¬ Present X existing

instance (c X : ℕ) (s : Session) (command : Command) : Decidable (Consistent c X s command) :=
  inferInstanceAs (Decidable (_ ∧ _))

/-- No row takes the own client to another channel, and the channel is not deleted. -/
def Stays (X : ℕ) (s : Session) (command : Command) : Prop :=
  (∀ entries, parseClientEnterView command = .ok entries → ∀ entry ∈ entries,
    entry.id = s.clientId → entry.channelId = 0 ∨ entry.channelId = X) ∧
  (∀ entries, parseClientMoved command = .ok entries → ∀ entry ∈ entries,
    entry.id = s.clientId → entry.channelId = 0 ∨ entry.channelId = X) ∧
  (∀ entries, parseClientLeftView command = .ok entries → ∀ entry ∈ entries,
    entry.id = s.clientId → entry.toChannelId = X) ∧
  ∀ deleted, ChannelDeleted.parse command = .ok deleted → deleted.channelId ≠ X

instance (X : ℕ) (s : Session) (command : Command) : Decidable (Stays X s command) :=
  inferInstanceAs (Decidable (_ ∧ _))

/-! ## What a row decides and what it stores -/

section Decisions

variable (X : ℕ) (subscribed : Finset ℕ) (existing : Option Client)

/-- The channel that a row of `notifycliententerview` is judged by. -/
def effectiveChannelId (entry : ClientEnterViewEntry) : ℕ :=
  if entry.channelId ≠ 0 then entry.channelId else recordedChannelId existing

def enterKind (entry : ClientEnterViewEntry) : Option ClientPresenceKind :=
  if effectiveChannelId existing entry = X ∧ ¬ (recordedChannelId existing = X ∧ known existing) then
    some .joined
  else none

def movedKind (entry : ClientMovedEntry) : Option ClientPresenceKind :=
  if entry.channelId = recordedChannelId existing then none
  else if recordedChannelId existing = X ∧ entry.channelId ≠ X then some .left
  else if recordedChannelId existing ≠ X ∧ entry.channelId = X ∧ known existing then some .joined
  else none

def leftKind (entry : ClientLeftViewEntry) : Option ClientPresenceKind :=
  if (if entry.fromChannelId ≠ 0 then entry.fromChannelId else recordedChannelId existing) = X ∧
      entry.toChannelId ≠ X ∧ existing.all (fun client => client.channelId = X) then
    some .left
  else none

def entered (entry : ClientEnterViewEntry) : Option Client :=
  some (ClientStore.enteredClient existing entry)

def movedTo (channelId : ℕ) (clientId : ℕ) : Option Client :=
  some { existing.getD {} with id := clientId, channelId }

def leftTo (entry : ClientLeftViewEntry) : Option Client :=
  if entry.toChannelId ≠ 0 ∧ entry.toChannelId ∈ subscribed then
    movedTo existing entry.toChannelId entry.id
  else none

@[simp] theorem known_entered (entry : ClientEnterViewEntry) : known (entered existing entry) := rfl

@[simp] theorem recordedChannelId_entered (entry : ClientEnterViewEntry) :
    recordedChannelId (entered existing entry) =
      if recordedChannelId existing ≠ 0 ∧ (entry.channelId = 0 ∨ known existing = false) then
        recordedChannelId existing
      else entry.channelId := by
  show ClientStore.enteredChannelId existing entry.channelId = _
  cases existing with
  | none => rfl
  | some client =>
    refine if_congr (and_congr_right fun _ => or_congr_right ?_) rfl rfl
    simp [known]

@[simp] theorem known_movedTo (channelId clientId : ℕ) :
    known (movedTo existing channelId clientId) = known existing := by
  cases existing <;> rfl

@[simp] theorem recordedChannelId_movedTo (channelId clientId : ℕ) :
    recordedChannelId (movedTo existing channelId clientId) = channelId := rfl

end Decisions

/-! ## Rows and records -/

/-- What the events of a command say about the record of the client. -/
def Change (X : ℕ) (before after : Option Client) (kinds : List ClientPresenceKind) : Prop :=
  (kinds = [] ∧ (Present X after ↔ Present X before)) ∨
  (kinds = [.joined] ∧ ¬ Present X before ∧ Present X after) ∨
  (kinds = [.left] ∧ Present X before ∧ recordedChannelId after ≠ X)

section Change

variable {X : ℕ} {existing : Option Client}

/-- Idle rows and one that fits. -/
theorem change_rows {ε : Type} {idle fits : ε → Prop} {kind : ε → Option ClientPresenceKind}
    {own : Option Client → ε → Option Client} (beside : Option Client → Prop)
    (hbeside : beside existing)
    (hidle : ∀ entry, idle entry → kind entry = none ∧
      ∀ current, beside current → beside (own current entry))
    (hfits : ∀ entry, fits entry → ∀ current, beside current →
      Change X existing (own current entry) (kind entry).toList)
    {rows : List ε} (h : RowsFit idle fits rows) :
    Change X existing (rows.foldl own existing) (rows.filterMap kind) := by
  obtain rfl | ⟨front, entry, rfl⟩ := rows.eq_nil_or_concat'
  · exact .inl ⟨rfl, Iff.rfl⟩
  obtain ⟨hfront, hlast⟩ := h
  rw [List.dropLast_concat] at hfront
  rw [List.getLast?_concat] at hlast
  have hnone : front.filterMap kind = [] :=
    List.filterMap_eq_nil_iff.2 fun entry hmem => (hidle entry (hfront entry hmem)).1
  have hcurrent : ∀ current, beside current → beside (front.foldl own current) := by
    clear hnone hlast
    induction front with
    | nil => exact fun _ h => h
    | cons entry front ih =>
      obtain ⟨hentry, hfront⟩ := List.forall_mem_cons.1 hfront
      exact fun current h => ih hfront _ ((hidle entry hentry).2 current h)
  rw [List.foldl_append, List.filterMap_append, hnone]
  have hkind : [] ++ [entry].filterMap kind = (kind entry).toList := by
    cases hk : kind entry <;> simp [hk]
  rw [hkind]
  exact hfits entry (hlast entry rfl) _ (hcurrent existing hbeside)

/-- Behind idle rows of `notifycliententerview`, the client is where it was, with details. -/
def EnteredBeside (X : ℕ) (existing current : Option Client) : Prop :=
  (recordedChannelId current = X ↔ recordedChannelId existing = X) ∧
  (recordedChannelId existing = X → known current = known existing) ∧
  (current = existing ∨ known current)

theorem enteredBeside_entered {current : Option Client} {entry : ClientEnterViewEntry}
    (hX : X ≠ 0) (hidle : EnterIdle X existing entry) (h : EnteredBeside X existing current) :
    EnteredBeside X existing (entered current entry) := by
  obtain ⟨hchannel, hknown, hsame⟩ := h
  unfold EnterIdle at hidle
  refine ⟨?_, fun hin => ?_, .inr rfl⟩
  · rw [recordedChannelId_entered]
    by_cases hin : recordedChannelId existing = X
    · rw [if_pos hin] at hidle
      grind
    · rw [if_neg hin] at hidle
      grind
  · rw [if_pos hin] at hidle
    rw [known_entered, hidle.1]

theorem change_entered {rows : List ClientEnterViewEntry} (hX : X ≠ 0)
    (h : RowsFit (EnterIdle X existing) (EnterFits X existing) rows) :
    Change X existing (rows.foldl entered existing) (rows.filterMap (enterKind X existing)) := by
  refine change_rows (EnteredBeside X existing) ⟨Iff.rfl, fun _ => rfl, .inl rfl⟩
    (fun entry (hidle : EnterIdle X existing entry) =>
      ⟨?_, fun current => enteredBeside_entered hX hidle⟩)
    (fun entry (hfits : EnterFits X existing entry) current hbeside => ?_) h
  · unfold enterKind effectiveChannelId
    unfold EnterIdle at hidle
    grind
  · obtain ⟨hchannel, hknown, hsame⟩ := hbeside
    obtain ⟨hpresent, hplaceholder⟩ := hfits
    unfold Change enterKind effectiveChannelId Present at *
    rw [known_entered, recordedChannelId_entered]
    grind

/-- Behind idle rows of `notifyclientmoved`, a client is on the same side, with the same details. -/
def MovedBeside (X : ℕ) (existing current : Option Client) : Prop :=
  (recordedChannelId current = X ↔ recordedChannelId existing = X) ∧
  known current = known existing

theorem change_moved {rows : List ClientMovedEntry}
    (h : RowsFit (MovedIdle X existing) (MovedFits X existing) rows) :
    Change X existing (rows.foldl (fun current entry => movedTo current entry.channelId entry.id)
      existing) (rows.filterMap (movedKind X existing)) := by
  refine change_rows (MovedBeside X existing) ⟨Iff.rfl, rfl⟩
    (fun entry (hidle : MovedIdle X existing entry) => ⟨?_, fun current hbeside => ⟨?_, ?_⟩⟩)
    (fun entry (hfits : MovedFits X existing entry) current hbeside => ?_) h
  · unfold movedKind
    unfold MovedIdle at hidle
    grind
  · rw [recordedChannelId_movedTo]
    exact hidle
  · rw [known_movedTo, hbeside.2]
  · obtain ⟨hchannel, hknown⟩ := hbeside
    unfold MovedFits at hfits
    unfold Change movedKind Present
    rw [known_movedTo, recordedChannelId_movedTo, hknown]
    grind

/-- Behind idle rows of `notifyclientleftview`, a client in the channel has the same details, and
one outside has no more than before. -/
def LeftBeside (X : ℕ) (existing current : Option Client) : Prop :=
  (recordedChannelId current = X ↔ recordedChannelId existing = X) ∧
  (recordedChannelId existing = X → known current = known existing) ∧
  (known current → known existing)

theorem leftTo_cases (subscribed : Finset ℕ) (current : Option Client)
    (entry : ClientLeftViewEntry) :
    leftTo subscribed current entry = none ∧
      (entry.toChannelId = 0 ∨ entry.toChannelId ∉ subscribed) ∨
    recordedChannelId (leftTo subscribed current entry) = entry.toChannelId ∧
      known (leftTo subscribed current entry) = known current ∧
      entry.toChannelId ∈ subscribed := by
  unfold leftTo
  split_ifs with hto
  · exact .inr ⟨rfl, known_movedTo _ _ _, hto.2⟩
  · exact .inl ⟨rfl, or_iff_not_and_not.2 fun h => hto ⟨h.1, not_not.1 h.2⟩⟩

theorem leftKind_cases (existing : Option Client) (hX : X ≠ 0) (entry : ClientLeftViewEntry) :
    leftKind X existing entry = some .left ∧ entry.toChannelId ≠ X ∧
      (existing = none ∧ entry.fromChannelId = X ∨
        recordedChannelId existing = X ∧ (entry.fromChannelId = 0 ∨ entry.fromChannelId = X)) ∨
    leftKind X existing entry = none ∧ (entry.toChannelId = X ∨
      (existing = none → entry.fromChannelId ≠ X) ∧
      (recordedChannelId existing = X → entry.fromChannelId ≠ 0 ∧ entry.fromChannelId ≠ X)) := by
  unfold leftKind
  cases existing with
  | none =>
    simp only [Option.all_none, recordedChannelId, Option.map_none, Option.getD_none]
    grind
  | some client =>
    simp only [Option.all_some, recordedChannelId, Option.map_some, Option.getD_some]
    grind

theorem change_left {rows : List ClientLeftViewEntry} {subscribed : Finset ℕ} (hX : X ≠ 0)
    (h : RowsFit (LeftIdle X (X ∈ subscribed) existing) (LeftFits X (X ∈ subscribed) existing) rows) :
    Change X existing (rows.foldl (leftTo subscribed) existing)
      (rows.filterMap (leftKind X existing)) := by
  have hnone : recordedChannelId none = 0 := rfl
  have hunknown : known none = false := rfl
  refine change_rows (LeftBeside X existing) ⟨Iff.rfl, fun _ => rfl, id⟩
    (fun entry (hidle : LeftIdle X (X ∈ subscribed) existing entry) =>
      ⟨?_, fun current hbeside => ?_⟩)
    (fun entry (hfits : LeftFits X (X ∈ subscribed) existing entry) current hbeside => ?_) h
  · unfold LeftIdle at hidle
    have hkind := leftKind_cases existing hX entry
    grind
  · obtain ⟨hchannel, hknown, hless⟩ := hbeside
    unfold LeftIdle at hidle
    unfold LeftBeside
    obtain ⟨hleft, hto⟩ | ⟨hto, hdetails, hmem⟩ := leftTo_cases subscribed current entry
    · rw [hleft, hnone, hunknown]
      grind
    · rw [hto, hdetails]
      grind
  · obtain ⟨hchannel, hknown, hless⟩ := hbeside
    obtain ⟨hpresent, houtside, hplaceholder, habsent⟩ := hfits
    have hkind := leftKind_cases existing hX entry
    unfold Change
    unfold Present at *
    obtain ⟨hleft, hto⟩ | ⟨hto, hdetails, hmem⟩ := leftTo_cases subscribed current entry
    · rw [hleft, hnone, hunknown]
      grind
    · rw [hto, hdetails]
      grind

end Change

/-! ## The rows of a command -/

/-- The kinds of the presence events about client `c`. -/
def presenceKinds (c : ℕ) (s : Session) : List ClientPresenceKind :=
  (s.presenceEvents.filter fun event => event.clientId = c).map ClientPresenceEvent.kind

/-- The own client is in a known channel, and presence is reported. -/
structure Watching (X : ℕ) (s : Session) : Prop where
  complete : s.initialStateComplete = true
  current : s.currentChannelId = X
  ne_zero : X ≠ 0
  found : (s.channels.channels.find? X).isSome

instance (X : ℕ) (s : Session) : Decidable (Watching X s) :=
  decidable_of_iff (s.initialStateComplete = true ∧ s.currentChannelId = X ∧ X ≠ 0 ∧
    (s.channels.channels.find? X).isSome)
    ⟨fun h => ⟨h.1, h.2.1, h.2.2.1, h.2.2.2⟩, fun h => ⟨h.complete, h.current, h.ne_zero, h.found⟩⟩

section Watching

variable {X c : ℕ} {s : Session}

theorem Watching.events (h : Watching X s) (events : List SessionEvent) :
    Watching X { s with events } := ⟨h.complete, h.current, h.ne_zero, h.found⟩

theorem isSome_find?_setSubscribed (channelId x : ℕ) (subscribed : Bool) (channels : ChannelStore) :
    ((channels.setSubscribed channelId subscribed).channels.find? x).isSome =
      (channels.channels.find? x).isSome := by
  unfold ChannelStore.setSubscribed
  split_ifs <;> simp [Registry.find?_modify]

theorem Watching.enterChannel (h : Watching X s) {channelId : ℕ}
    (hown : channelId = 0 ∨ channelId = X) : Watching X (s.enterChannel channelId) := by
  unfold Session.enterChannel
  split_ifs with hzero
  · exact h
  · refine ⟨h.complete, hown.resolve_left hzero, h.ne_zero, ?_⟩
    rw [isSome_find?_setSubscribed]
    exact h.found

theorem presenceKinds_emitPresence (h : Watching X s) (kind : ClientPresenceKind) (clientId : ℕ)
    (clientName : Bytes) : presenceKinds c (s.emitPresence kind clientId X clientName) =
      presenceKinds c s ++ if clientId = c then [kind] else [] := by
  obtain ⟨channel, hchannel⟩ := Option.isSome_iff_exists.1 h.found
  have hhere : ¬ (X = 0 ∨ X ≠ s.currentChannelId) := by
    rintro (hzero | hne)
    · exact h.ne_zero hzero
    · exact hne h.current.symm
  unfold emitPresence presenceKinds presenceEvents
  rw [if_neg hhere, hchannel]
  by_cases hc : clientId = c <;> simp [hc, presence?]

/-- Rows that only emit the events they decide on. -/
theorem presenceKinds_foldl {ε : Type} {id : ε → ℕ} {row : Session → ε → Session}
    {leads : ε → Prop} {kind : Option Client → ε → Option ClientPresenceKind}
    (hid : ∀ s entry, (row s entry).clientId = s.clientId) (hclients : ReadsOwn id row)
    (hrow : ∀ {s}, Watching X s → c ≠ s.clientId → ∀ entry, (id entry = s.clientId → leads entry) →
      Watching X (row s entry) ∧ presenceKinds c (row s entry) = presenceKinds c s ++
        if id entry = c then (kind (s.clients.find? (id entry)) entry).toList else [])
    {entries : List ε} (h : Watching X s) (hc : c ≠ s.clientId)
    (hleads : ∀ entry ∈ entries, id entry = s.clientId → leads entry) :
    Watching X (entries.foldl row s) ∧ presenceKinds c (entries.foldl row s) =
      presenceKinds c s ++
        (entries.filter fun entry => id entry = c).filterMap (kind (s.clients.find? c)) := by
  induction entries generalizing s with
  | nil => exact ⟨h, by simp⟩
  | cons entry entries ih =>
    obtain ⟨hentry, hleads⟩ := List.forall_mem_cons.1 hleads
    obtain ⟨hwatching, hkinds⟩ := hrow h hc entry hentry
    rw [← hid s entry] at hc hleads
    obtain ⟨hrest, hrestKinds⟩ := ih hwatching hc hleads
    refine ⟨hrest, ?_⟩
    rw [List.foldl_cons, hrestKinds, hkinds, hclients.clients_eq, List.append_assoc]
    by_cases hentryId : id entry = c
    · rw [if_pos hentryId, List.filter_cons_of_pos (by simpa using hentryId), hentryId]
      cases hkind : kind (s.clients.find? c) entry <;> simp [hkind]
    · rw [if_neg hentryId, List.filter_cons_of_neg (by simpa using hentryId), List.nil_append]

/-- The event that a row decides on. -/
def emit (kind : Option ClientPresenceKind) (clientId X : ℕ) (clientName : Bytes) (s : Session) :
    Session :=
  match kind with
  | some kind => s.emitPresence kind clientId X clientName
  | none => s

theorem Watching.emit (h : Watching X s) (kind : Option ClientPresenceKind) (clientId : ℕ)
    (clientName : Bytes) : Watching X (s.emit kind clientId X clientName) ∧
      presenceKinds c (s.emit kind clientId X clientName) =
        presenceKinds c s ++ if clientId = c then kind.toList else [] := by
  cases kind with
  | none => exact ⟨h, by simp [Session.emit]⟩
  | some kind =>
    refine ⟨?_, presenceKinds_emitPresence h kind clientId clientName⟩
    obtain ⟨events, hemit⟩ := emitPresence_eq kind clientId X clientName s
    show Watching X (s.emitPresence kind clientId X clientName)
    rw [hemit]
    exact h.events events

@[simp] theorem events_enterChannel (channelId : ℕ) (s : Session) :
    (s.enterChannel channelId).events = s.events := by
  unfold Session.enterChannel; split <;> rfl

/-- A row about the own client says nothing about another one. -/
theorem presenceKinds_own {s' : Session} {kind : Option ClientPresenceKind} {clientId : ℕ}
    (hevents : s'.events = s.events) (hc : c ≠ s.clientId) (hown : clientId = s.clientId) :
    presenceKinds c s' = presenceKinds c s ++ if clientId = c then kind.toList else [] := by
  rw [if_neg fun h => hc (h.symm.trans hown), List.append_nil]
  unfold presenceKinds presenceEvents
  rw [hevents]

theorem row_enterView (h : Watching X s) (hc : c ≠ s.clientId) (entry : ClientEnterViewEntry)
    (hleads : entry.id = s.clientId → entry.channelId = 0 ∨ entry.channelId = X) :
    Watching X (enterViewRow s entry) ∧ presenceKinds c (enterViewRow s entry) =
      presenceKinds c s ++
        if entry.id = c then (enterKind X (s.clients.find? entry.id) entry).toList else [] := by
  by_cases hown : entry.id = s.clientId
  · obtain ⟨currentNickname, hrow⟩ := enterViewRow_of_own hown
    rw [hrow]
    have henter := h.enterChannel (hleads hown)
    exact ⟨⟨henter.complete, henter.current, henter.ne_zero, henter.found⟩,
      presenceKinds_own (events_enterChannel _ s) hc hown⟩
  · have hrow : enterViewRow s entry =
        s.emit (enterKind X (s.clients.find? entry.id) entry) entry.id X entry.nickname := by
      have hX := h.ne_zero
      unfold enterViewRow enterKind effectiveChannelId Session.emit
      rw [if_neg hown]
      dsimp only
      rw [h.current, h.complete]
      cases s.clients.find? entry.id with
      | none =>
        simp only [recordedChannelId, known, Option.map_none, Option.getD_none, Option.any_none]
        grind
      | some client =>
        simp only [recordedChannelId, known, Option.map_some, Option.getD_some, Option.any_some]
        grind
    rw [hrow]
    exact h.emit _ entry.id entry.nickname

theorem row_moved (h : Watching X s) (hc : c ≠ s.clientId) (entry : ClientMovedEntry)
    (hleads : entry.id = s.clientId → entry.channelId = 0 ∨ entry.channelId = X) :
    Watching X (movedRow s entry) ∧ presenceKinds c (movedRow s entry) =
      presenceKinds c s ++
        if entry.id = c then (movedKind X (s.clients.find? entry.id) entry).toList else [] := by
  by_cases hown : entry.id = s.clientId
  · rw [movedRow_of_own hown]
    exact ⟨h.enterChannel (hleads hown), presenceKinds_own (events_enterChannel _ s) hc hown⟩
  · have hrow : movedRow s entry = s.emit (movedKind X (s.clients.find? entry.id) entry) entry.id X
        (((s.clients.find? entry.id).map Client.nickname).getD []) := by
      unfold movedRow movedKind Session.emit
      dsimp only
      rw [if_neg hown, h.current, h.complete]
      simp only [recordedChannelId, known]
      grind
    rw [hrow]
    exact h.emit _ entry.id _

theorem row_leftView (h : Watching X s) (hc : c ≠ s.clientId) (entry : ClientLeftViewEntry)
    (hleads : entry.id = s.clientId → entry.toChannelId = X) :
    Watching X (leftViewRow s entry) ∧ presenceKinds c (leftViewRow s entry) =
      presenceKinds c s ++
        if entry.id = c then (leftKind X (s.clients.find? entry.id) entry).toList else [] := by
  by_cases hown : entry.id = s.clientId
  · rw [leftViewRow_of_own hown]
    have hto : entry.toChannelId ≠ 0 := (hleads hown).trans_ne h.ne_zero
    unfold leaveTo
    rw [if_pos hto]
    refine ⟨⟨h.complete, hleads hown, h.ne_zero, ?_⟩, presenceKinds_own rfl hc hown⟩
    rw [isSome_find?_setSubscribed]
    exact h.found
  · have hrow : leftViewRow s entry = s.emit (leftKind X (s.clients.find? entry.id) entry) entry.id X
        (((s.clients.find? entry.id).map Client.nickname).getD []) := by
      unfold leftViewRow leftKind Session.emit
      dsimp only
      rw [if_neg hown, h.current, h.complete]
      simp only [recordedChannelId]
      grind
    rw [hrow]
    exact h.emit _ entry.id _

end Watching

/-! ## Commands -/

section Commands

variable {X c : ℕ} {s : Session}

/-- A command that emits nothing about the client and does not touch its presence. -/
theorem change_unseen {s' : Session} (hevents : s'.presenceEvents = s.presenceEvents)
    (hpresent : Present X (s'.clients.find? c) ↔ Present X (s.clients.find? c)) :
    ∃ kinds, presenceKinds c s' = presenceKinds c s ++ kinds ∧
      Change X (s.clients.find? c) (s'.clients.find? c) kinds := by
  refine ⟨[], ?_, .inl ⟨rfl, hpresent⟩⟩
  unfold presenceKinds
  rw [hevents, List.append_nil]

theorem change_enterView (h : Watching X s) (hc : c ≠ s.clientId)
    {entries : List ClientEnterViewEntry}
    (hleads : ∀ entry ∈ entries, entry.id = s.clientId → entry.channelId = 0 ∨ entry.channelId = X)
    (hfits : RowsFit (EnterIdle X (s.clients.find? c)) (EnterFits X (s.clients.find? c))
      (entries.filter fun entry => entry.id = c)) :
    ∃ kinds, presenceKinds c (s.enterView entries) = presenceKinds c s ++ kinds ∧
      Change X (s.clients.find? c) ((s.enterView entries).clients.find? c) kinds := by
  refine ⟨_, (presenceKinds_foldl clientId_enterViewRow readsOwn_enterViewRow
    (fun h hc entry hleads => row_enterView h hc entry hleads) h hc hleads).2, ?_⟩
  have hstore : (s.enterView entries).clients = entries.foldl ClientStore.enter s.clients := by
    show entries.foldl ClientStore.enter (entries.foldl enterViewRow s).clients = _
    rw [readsOwn_enterViewRow.foldl_clients]
  have hown : (entries.foldl ClientStore.enter s.clients).find? c =
      (entries.filter fun entry => entry.id = c).foldl entered (s.clients.find? c) :=
    Registry.find?_foldl ClientStore.find?_enter entries s.clients c
  rw [hstore, hown]
  exact change_entered h.ne_zero hfits

theorem change_movedView (h : Watching X s) (hc : c ≠ s.clientId) {entries : List ClientMovedEntry}
    (hleads : ∀ entry ∈ entries, entry.id = s.clientId → entry.channelId = 0 ∨ entry.channelId = X)
    (hfits : RowsFit (MovedIdle X (s.clients.find? c)) (MovedFits X (s.clients.find? c))
      (entries.filter fun entry => entry.id = c)) :
    ∃ kinds, presenceKinds c (s.moved entries) = presenceKinds c s ++ kinds ∧
      Change X (s.clients.find? c) ((s.moved entries).clients.find? c) kinds := by
  refine ⟨_, (presenceKinds_foldl clientId_movedRow readsOwn_movedRow
    (fun h hc entry hleads => row_moved h hc entry hleads) h hc hleads).2, ?_⟩
  have hstore : (s.moved entries).clients = ClientStore.applyMoved entries s.clients := by
    show ClientStore.applyMoved entries (entries.foldl movedRow s).clients = _
    rw [readsOwn_movedRow.foldl_clients]
  have hown : (ClientStore.applyMoved entries s.clients).find? c =
      (entries.filter fun entry => entry.id = c).foldl
        (fun current entry => movedTo current entry.channelId entry.id) (s.clients.find? c) :=
    Registry.find?_foldl (fun clients entry => ClientStore.find?_move clients entry.id _) entries
      s.clients c
  rw [hstore, hown]
  exact change_moved hfits

theorem foldl_leaveClients (subscribed : Finset ℕ) (hc : c ≠ s.clientId)
    (entries : List ClientLeftViewEntry) :
    (entries.foldl (leaveClients subscribed s.clientId) s.clients).find? c =
      (entries.filter fun entry => entry.id = c).foldl (leftTo subscribed) (s.clients.find? c) := by
  generalize s.clients = clients
  induction entries generalizing clients with
  | nil => rfl
  | cons entry entries ih =>
    rw [List.foldl_cons, ih, find?_leaveClients]
    by_cases hid : entry.id = c
    · subst hid
      rw [if_pos ⟨rfl, hc⟩, List.filter_cons_of_pos (by simp), List.foldl_cons]
      rfl
    · rw [if_neg fun h => hid h.1.symm, List.filter_cons_of_neg (by simpa using hid)]

theorem change_leftView (h : Watching X s) (hc : c ≠ s.clientId)
    {entries : List ClientLeftViewEntry}
    (hleads : ∀ entry ∈ entries, entry.id = s.clientId → entry.toChannelId = X)
    (hfits : RowsFit (LeftIdle X (SubscribedBehind X s entries) (s.clients.find? c))
      (LeftFits X (SubscribedBehind X s entries) (s.clients.find? c))
      (entries.filter fun entry => entry.id = c)) :
    ∃ kinds, presenceKinds c (s.leftView entries) = presenceKinds c s ++ kinds ∧
      Change X (s.clients.find? c) ((s.leftView entries).clients.find? c) kinds := by
  have hsubscribed : SubscribedBehind X s entries =
      (X ∈ (entries.foldl leftViewRow s).channels.subscribedChannels) :=
    propext mem_subscribedChannels_foldl_leftViewRow.symm
  rw [hsubscribed] at hfits
  rw [leftView_eq, clients_setClients, foldl_leaveClients _ hc]
  exact ⟨_, (presenceKinds_foldl clientId_leftViewRow readsOwn_leftViewRow
    (fun h hc entry hleads => row_leftView h hc entry hleads) h hc hleads).2,
    change_left h.ne_zero hfits⟩

theorem find?_unsubscribeClients (hc : c ≠ s.clientId) (channelIds : List ℕ) :
    (s.unsubscribeClients channelIds).find? c =
      (s.clients.find? c).filter fun client => client.channelId ∉ channelIds := by
  unfold unsubscribeClients
  generalize s.clients = clients
  induction channelIds generalizing clients with
  | nil =>
    show clients.find? c = _
    cases clients.find? c <;> simp [Option.filter]
  | cons channelId channelIds ih =>
    rw [List.foldl_cons, ih, ClientStore.find?_removeInChannel_of_ne clients channelId hc,
      Option.filter_filter]
    simp only [List.mem_cons, not_or, Bool.decide_and]

/-- Forgetting a client with another channel leaves its presence. -/
theorem present_filter {existing : Option Client} {p : Client → Bool}
    (h : Present X existing → ∀ client, existing = some client → p client) :
    Present X (existing.filter p) ↔ Present X existing := by
  cases existing with
  | none => exact Iff.rfl
  | some client =>
    by_cases hp : p client = true
    · rw [Option.filter_some, if_pos hp]
    · rw [Option.filter_some, if_neg hp]
      exact iff_of_false (fun hnone => absurd hnone.2 (by simp [known]))
        fun hpresent => hp (h hpresent client rfl)

/-- **One command**: the events about the client say how its presence changes. -/
theorem change_step (env : Environment) (h : Watching X s) (hc : c ≠ s.clientId) {command : Command}
    (hstays : Stays X s command) (hconsistent : Consistent c X s command) :
    ∃ kinds, presenceKinds c (step env s command) = presenceKinds c s ++ kinds ∧
      Change X (s.clients.find? c) ((step env s command).clients.find? c) kinds := by
  obtain ⟨hentered, hmoved, hleft, hsubscription⟩ := hconsistent
  obtain ⟨hstaysEntered, hstaysMoved, hstaysLeft, hdeleted⟩ := hstays
  have heffect := effect_step env s command
  generalize step env s command = s' at heffect ⊢
  cases heffect with
  | entered hparse =>
    exact change_enterView h hc (hstaysEntered _ hparse) (hentered _ hparse)
  | moved hparse => exact change_movedView h hc (hstaysMoved _ hparse) (hmoved _ hparse)
  | left hparse => exact change_leftView h hc (hstaysLeft _ hparse) (hleft _ hparse)
  | updated hparse =>
    rename_i entries
    obtain ⟨currentNickname, hupdated⟩ := updated_eq entries s
    rw [hupdated]
    refine change_unseen rfl ?_
    unfold Present
    rw [recordedChannelId_applyUpdated, known_applyUpdated]
  | subscription hparse =>
    rename_i subscription
    unfold applySubscription
    dsimp only
    split_ifs with hsubscribed
    · exact change_unseen rfl Iff.rfl
    · refine change_unseen rfl ?_
      show Present X ((s.unsubscribeClients subscription.entries).find? c) ↔ _
      rw [find?_unsubscribeClients hc]
      refine present_filter fun hpresent client hclient => decide_eq_true fun hmem => ?_
      have hchannel : client.channelId = X := by
        rw [← hpresent.1, hclient]
        rfl
      exact hsubscription _ hparse (by simpa using hsubscribed) (hchannel ▸ hmem) hpresent
  | deleted hparse =>
    rename_i deleted
    refine change_unseen rfl ?_
    show Present X ((s.clients.removeInChannel deleted.channelId s.clientId).find? c) ↔ _
    rw [ClientStore.find?_removeInChannel_of_ne _ _ hc]
    refine present_filter fun hpresent client hclient => decide_eq_true fun hdeletedX => ?_
    have hchannel : client.channelId = X := by
      rw [← hpresent.1, hclient]
      rfl
    exact hdeleted _ hparse (hdeletedX.symm.trans hchannel)
  | quiet hquiet => exact change_unseen hquiet.presenceEvents (by rw [hquiet.clients])

theorem clientId_step (env : Environment) (s : Session) (command : Command) :
    (step env s command).clientId = s.clientId := by
  have heffect := effect_step env s command
  generalize step env s command = s' at heffect ⊢
  cases heffect with
  | entered => exact foldl_clientId clientId_enterViewRow _ s
  | moved => exact foldl_clientId clientId_movedRow _ s
  | left =>
    rw [leftView_eq]
    exact foldl_clientId clientId_leftViewRow _ s
  | updated =>
    rename_i entries _
    obtain ⟨currentNickname, hupdated⟩ := updated_eq entries s
    rw [hupdated]
  | subscription =>
    unfold applySubscription
    dsimp only
    split_ifs <;> rfl
  | deleted => rfl
  | quiet hquiet => exact hquiet.clientId

end Commands

/-! ## Runs -/

/-- The kinds of the events that a command emits about client `c`. -/
def emittedKinds (env : Environment) (c : ℕ) (s : Session) (command : Command) :
    List ClientPresenceKind :=
  (presenceKinds c (step env s command)).drop (presenceKinds c s).length

/-- The kinds of the events that a run emits about client `c`. -/
def presenceRun (env : Environment) (c : ℕ) : Session → List Command → List ClientPresenceKind
  | _, [] => []
  | s, command :: commands =>
    emittedKinds env c s command ++ presenceRun env c (step env s command) commands

/-- Behind the command, the store has client `c` where the events of the command say. -/
def EventsHold (env : Environment) (c X : ℕ) (s : Session) (command : Command) : Prop :=
  (.joined ∈ emittedKinds env c s command → Present X ((step env s command).clients.find? c)) ∧
  (.left ∈ emittedKinds env c s command →
    recordedChannelId ((step env s command).clients.find? c) ≠ X)

section Runs

variable {env : Environment} {X c : ℕ} {s : Session} {commands : List Command}

/-- The first event of a run says where the client is not before it. -/
theorem presenceRun_aux (hc : c ≠ s.clientId)
    (hwatching : ∀ front, front <+: commands → Watching X (front.foldl (step env) s))
    (hstays : Runs.Along (step env) (Stays X) s commands)
    (hconsistent : Runs.Along (step env) (Consistent c X) s commands) :
    (∀ kind ∈ (presenceRun env c s commands).head?,
      kind = .joined ↔ ¬ Present X (s.clients.find? c)) ∧
    (presenceRun env c s commands).IsChain (· ≠ ·) ∧
    Runs.Along (step env) (EventsHold env c X) s commands := by
  induction commands generalizing s with
  | nil => exact ⟨nofun, .nil, trivial⟩
  | cons command commands ih =>
    have hfirst : Watching X s := hwatching [] List.nil_prefix
    obtain ⟨kinds, hkinds, hchange⟩ := change_step env hfirst hc hstays.1 hconsistent.1
    have hemitted : emittedKinds env c s command = kinds := by
      unfold emittedKinds
      rw [hkinds, List.drop_left]
    obtain ⟨hhead, hchain, hhold⟩ := ih (s := step env s command)
      (by rw [clientId_step]; exact hc)
      (fun front hfront => hwatching (command :: front) ((List.prefix_cons_inj command).2 hfront))
      hstays.2 hconsistent.2
    unfold presenceRun
    rw [hemitted]
    obtain ⟨rfl, hsame⟩ | ⟨rfl, habsent, hpresent⟩ | ⟨rfl, hpresent, hgone⟩ := hchange
    · refine ⟨fun kind hkind => (hhead kind hkind).trans (not_congr hsame), hchain, ⟨?_, hhold⟩⟩
      unfold EventsHold
      rw [hemitted]
      exact ⟨nofun, nofun⟩
    · refine ⟨?_, List.isChain_cons.2 ⟨?_, hchain⟩, ⟨?_, hhold⟩⟩
      · rintro kind ⟨⟩
        exact iff_of_true rfl habsent
      · rintro kind hkind rfl
        exact (hhead _ hkind).1 rfl hpresent
      · unfold EventsHold
        rw [hemitted]
        exact ⟨fun _ => hpresent, by simp⟩
    · have habsent : ¬ Present X ((step env s command).clients.find? c) := fun h => hgone h.1
      refine ⟨?_, List.isChain_cons.2 ⟨?_, hchain⟩, ⟨?_, hhold⟩⟩
      · rintro kind ⟨⟩
        exact iff_of_false nofun (not_not.2 hpresent)
      · rintro kind hkind rfl
        exact absurd ((hhead _ hkind).2 habsent) nofun
      · unfold EventsHold
        rw [hemitted]
        exact ⟨by simp, fun _ => hgone⟩

/-- **Presence.** In a run of consistent commands with the own client in one known channel, the
events about another client say in turn that it joined and that it left, and the store agrees with
each of them. -/
theorem presence_alternates (hc : c ≠ s.clientId)
    (hwatching : ∀ front, front <+: commands → Watching X (front.foldl (step env) s))
    (hstays : Runs.Along (step env) (Stays X) s commands)
    (hconsistent : Runs.Along (step env) (Consistent c X) s commands) :
    (presenceRun env c s commands).IsChain (· ≠ ·) ∧
      Runs.Along (step env) (EventsHold env c X) s commands :=
  (presenceRun_aux hc hwatching hstays hconsistent).2

/-- Client 2 enters channel 5. -/
def otherEntersFive : Command where
  name := ascii "notifycliententerview"
  rows := [rowOf [("clid", "2"), ("ctid", "5"), ("client_nickname", "b")]]

/-- Client 2 is moved to channel 6. -/
def otherMovesToSix : Command where
  name := ascii "notifyclientmoved"
  rows := [rowOf [("clid", "2"), ("ctid", "6"), ("reasonid", "0")]]

/-- Client 2 enters, and is moved away. -/
theorem presence_alternates_loggedIn :
    presenceRun workingNetwork 2 loggedIn [otherEntersFive, otherMovesToSix] = [.joined, .left] ∧
    (presenceRun workingNetwork 2 loggedIn [otherEntersFive, otherMovesToSix]).IsChain (· ≠ ·) ∧
    Runs.Along (step workingNetwork) (EventsHold workingNetwork 2 5) loggedIn
      [otherEntersFive, otherMovesToSix] := by
  refine ⟨by decide +kernel, presence_alternates (by decide +kernel) (fun front hfront => ?_)
    ⟨by decide +kernel, by decide +kernel, trivial⟩ ⟨by decide +kernel, by decide +kernel, trivial⟩⟩
  have hall : ∀ front ∈ [otherEntersFive, otherMovesToSix].inits,
      Watching 5 (front.foldl (step workingNetwork) loggedIn) := by decide +kernel
  exact hall front ((List.mem_inits _ _).2 hfront)

/-- Moved before it enters, client 2 joins channel 5 and is stored in channel 6. -/
theorem presence_misplaced :
    (∀ front, front <+: [otherMovesToSix, otherEntersFive] →
      Watching 5 (front.foldl (step workingNetwork) loggedIn)) ∧
    Runs.Along (step workingNetwork) (Stays 5) loggedIn [otherMovesToSix, otherEntersFive] ∧
    ¬ Runs.Along (step workingNetwork) (EventsHold workingNetwork 2 5) loggedIn
      [otherMovesToSix, otherEntersFive] := by
  refine ⟨fun front hfront => ?_, ⟨by decide +kernel, by decide +kernel, trivial⟩, fun h => ?_⟩
  · have hall : ∀ front ∈ [otherMovesToSix, otherEntersFive].inits,
        Watching 5 (front.foldl (step workingNetwork) loggedIn) := by decide +kernel
    exact hall front ((List.mem_inits _ _).2 hfront)
  · have hpresent := h.2.1.1 (by decide +kernel)
    exact absurd hpresent (by decide +kernel)

end Runs

end Session

end TsCli
