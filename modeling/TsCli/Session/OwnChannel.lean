import TsCli.Lib.Runs
import TsCli.Session.BatchedRows

/-!
# The two records of the own channel

`currentChannelId` and the store's record of the own client are written by different code, and the
two can come to disagree in two ways: when the notification that brings the details of the own
client names another channel than the placeholder holds, and when the own client leaves to a channel
without a move. Nothing else sets them apart (`agrees_iff`).
-/

namespace TsCli

namespace Session

open Exec

/-- The channel in the store's record of the own client. -/
def selfChannelId (s : Session) : ℕ := recordedChannelId (s.clients.find? s.clientId)

/-- Unless the server removed the own client, its record names no channel or the current one. -/
def Agrees (s : Session) : Prop :=
  s.serverRemoval = none → s.selfChannelId ≠ 0 → s.selfChannelId = s.currentChannelId

/-- The rows about the own client. -/
def ownEntered (s : Session) (entries : List ClientEnterViewEntry) : List ClientEnterViewEntry :=
  entries.filter fun entry => entry.id = s.clientId

/-- The rows about the own client. -/
def ownLeft (s : Session) (entries : List ClientLeftViewEntry) : List ClientLeftViewEntry :=
  entries.filter fun entry => entry.id = s.clientId

/-- When the own record is a placeholder in a channel, the first own row names that channel or
none, or a later one names some channel. -/
def EnterAgrees (s : Session) (entries : List ClientEnterViewEntry) : Prop :=
  ∀ self first rest, s.clients.find? s.clientId = some self → self.detailsKnown = false →
    self.channelId ≠ 0 → s.ownEntered entries = first :: rest →
    first.channelId = 0 ∨ first.channelId = self.channelId ∨ ∃ entry ∈ rest, entry.channelId ≠ 0

/-- An own row is a removal from the server, or the last one leads to the channel of the own
record, if that names one. -/
def LeftAgrees (s : Session) (entries : List ClientLeftViewEntry) : Prop :=
  ∀ last ∈ (s.ownLeft entries).getLast?, (∃ entry ∈ s.ownLeft entries, entry.toChannelId = 0) ∨
    s.selfChannelId = 0 ∨ last.toChannelId = s.selfChannelId

/-- The commands that keep the records together. -/
def Keeps (s : Session) (command : Command) : Prop :=
  s.serverRemoval = none →
    (∀ entries, parseClientEnterView command = .ok entries → s.EnterAgrees entries) ∧
    ∀ entries, parseClientLeftView command = .ok entries → s.LeftAgrees entries

/-- The two records name the same channel. -/
def Match (records : ℕ × Option Client) : Prop :=
  recordedChannelId records.2 ≠ 0 → recordedChannelId records.2 = records.1

theorem agrees_iff_match (s : Session) : Agrees s ↔
    (s.serverRemoval = none → Match (s.currentChannelId, s.clients.find? s.clientId)) := Iff.rfl

/-! ## Rows -/

section Rows

variable {ε : Type} {id : ε → ℕ} {row : Session → ε → Session} {write : ClientStore → ε → ClientStore}
  {own : ℕ × Option Client → ε → ℕ × Option Client}

/-- The rows about the own client, and nothing else, change the two records. -/
theorem records_foldl (hid : ∀ s entry, (row s entry).clientId = s.clientId)
    (hrow : ∀ s entry, id entry ≠ s.clientId →
      (row s entry).currentChannelId = s.currentChannelId)
    (hwrite : ∀ clients entry c, c ≠ id entry → (write clients entry).find? c = clients.find? c)
    (hown : ∀ s entry clients, id entry = s.clientId →
      ((row s entry).currentChannelId, (write clients entry).find? s.clientId) =
        own (s.currentChannelId, clients.find? s.clientId) entry)
    (entries : List ε) (s : Session) (clients : ClientStore) :
    ((entries.foldl row s).currentChannelId, (entries.foldl write clients).find? s.clientId) =
      (entries.filter fun entry => id entry = s.clientId).foldl own
        (s.currentChannelId, clients.find? s.clientId) := by
  induction entries generalizing s clients with
  | nil => rfl
  | cons entry entries ih =>
    rw [List.foldl_cons, List.foldl_cons]
    have hrest := ih (row s entry) (write clients entry)
    rw [hid] at hrest
    rw [hrest]
    by_cases h : id entry = s.clientId
    · rw [hown s entry clients h, List.filter_cons_of_pos (by simpa using h), List.foldl_cons]
    · rw [hrow s entry h, hwrite clients entry _ (Ne.symm h),
        List.filter_cons_of_neg (by simpa using h)]

theorem foldl_serverRemoval (h : ∀ s entry, (row s entry).serverRemoval = s.serverRemoval)
    (entries : List ε) (s : Session) : (entries.foldl row s).serverRemoval = s.serverRemoval := by
  induction entries generalizing s with
  | nil => rfl
  | cons entry entries ih => rw [List.foldl_cons, ih, h]

theorem serverRemoval_enterViewRow (s : Session) (entry : ClientEnterViewEntry) :
    (enterViewRow s entry).serverRemoval = s.serverRemoval := by
  by_cases h : entry.id = s.clientId
  · obtain ⟨currentNickname, hrow⟩ := enterViewRow_of_own h
    rw [hrow]
    exact serverRemoval_enterChannel _ s
  · obtain ⟨events, hrow⟩ := enterViewRow_of_ne h
    rw [hrow]

theorem serverRemoval_movedRow (s : Session) (entry : ClientMovedEntry) :
    (movedRow s entry).serverRemoval = s.serverRemoval := by
  by_cases h : entry.id = s.clientId
  · rw [movedRow_of_own h, serverRemoval_enterChannel]
  · obtain ⟨events, hrow⟩ := movedRow_of_ne h
    rw [hrow]

end Rows

/-! ## Entered -/

section Entered

/-- What an own row does to the two records. -/
def enterOwn (records : ℕ × Option Client) (entry : ClientEnterViewEntry) : ℕ × Option Client :=
  (if entry.channelId = 0 then records.1 else entry.channelId,
    some (ClientStore.enteredClient records.2 entry))

/-- No placeholder in a channel. -/
def Settled (existing : Option Client) : Prop :=
  ∀ self, existing = some self → self.detailsKnown = false → self.channelId = 0

theorem settled_enterOwn (records : ℕ × Option Client) (entry : ClientEnterViewEntry) :
    Settled (enterOwn records entry).2 := by
  rintro self h hknown
  cases h
  cases hknown

/-- A row without a channel keeps the match; one with a channel makes it. -/
theorem match_enterOwn_iff {records : ℕ × Option Client} (h : Settled records.2)
    (entry : ClientEnterViewEntry) :
    Match (enterOwn records entry) ↔ entry.channelId ≠ 0 ∨ Match records := by
  obtain ⟨current, existing⟩ := records
  have hchannel : recordedChannelId (enterOwn (current, existing) entry).2 =
      if entry.channelId = 0 then recordedChannelId existing else entry.channelId := by
    show ClientStore.enteredChannelId existing entry.channelId = _
    unfold ClientStore.enteredChannelId
    cases existing with
    | none => simp [recordedChannelId]
    | some self =>
      have hself := h self rfl
      by_cases hx : entry.channelId = 0
      · simp only [hx, true_or, and_true, if_true]
        split_ifs with h0
        · rfl
        · exact (not_not.1 h0).symm
      · have hnot : ¬ (self.channelId ≠ 0 ∧ (entry.channelId = 0 ∨ !self.detailsKnown)) := by
          rintro ⟨h0, hx' | hknown⟩
          · exact hx hx'
          · exact h0 (hself (by simpa using hknown))
        dsimp only
        rw [if_neg hnot, if_neg hx]
  unfold Match
  rw [hchannel]
  by_cases hx : entry.channelId = 0
  · simp [hx, enterOwn]
  · simp [hx, enterOwn]

theorem match_foldl_enterOwn_iff {records : ℕ × Option Client} (h : Settled records.2)
    (entries : List ClientEnterViewEntry) :
    Match (entries.foldl enterOwn records) ↔
      (∃ entry ∈ entries, entry.channelId ≠ 0) ∨ Match records := by
  induction entries generalizing records with
  | nil => simp
  | cons entry entries ih =>
    rw [List.foldl_cons, ih (settled_enterOwn records entry), match_enterOwn_iff h,
      List.exists_mem_cons_iff, or_assoc, or_left_comm]

/-- A placeholder in a channel stays there, and the current channel follows the row. -/
theorem match_enterOwn_placeholder {current : ℕ} {self : Client} (hknown : self.detailsKnown = false)
    (hchannel : self.channelId ≠ 0) (hself : self.channelId = current) (entry : ClientEnterViewEntry) :
    Match (enterOwn (current, some self) entry) ↔
      entry.channelId = 0 ∨ entry.channelId = self.channelId := by
  have hrecord : recordedChannelId (enterOwn (current, some self) entry).2 = self.channelId := by
    show ClientStore.enteredChannelId (some self) entry.channelId = _
    unfold ClientStore.enteredChannelId
    exact if_pos ⟨hchannel, .inr (by simp [hknown])⟩
  unfold Match
  rw [hrecord]
  by_cases hx : entry.channelId = 0
  · simp [hx, enterOwn, hself]
  · simp [hx, enterOwn, hchannel, eq_comm]

theorem records_enterView (s : Session) (entries : List ClientEnterViewEntry) :
    ((s.enterView entries).currentChannelId, (s.enterView entries).clients.find? s.clientId) =
      (s.ownEntered entries).foldl enterOwn (s.currentChannelId, s.clients.find? s.clientId) := by
  have hstore : (s.enterView entries).clients = entries.foldl ClientStore.enter s.clients := by
    show entries.foldl ClientStore.enter (entries.foldl enterViewRow s).clients = _
    rw [readsOwn_enterViewRow.foldl_clients]
  rw [hstore]
  refine records_foldl clientId_enterViewRow (fun s entry h => ?_) (fun clients entry c hc => ?_)
    (fun s entry clients h => ?_) entries s s.clients
  · obtain ⟨events, hrow⟩ := enterViewRow_of_ne h
    rw [hrow]
  · rw [ClientStore.find?_enter, if_neg hc]
  · obtain ⟨currentNickname, hrow⟩ := enterViewRow_of_own h
    rw [hrow, ClientStore.find?_enter, if_pos h.symm, ← h]
    show ((s.enterChannel entry.channelId).currentChannelId, _) = _
    rw [currentChannelId_enterChannel]
    rfl

theorem agrees_enterView_iff {s : Session} (h : Agrees s) (hremoval : s.serverRemoval = none)
    (entries : List ClientEnterViewEntry) :
    Agrees (s.enterView entries) ↔ s.EnterAgrees entries := by
  have hmatch := (agrees_iff_match s).1 h hremoval
  have hremoval' : (s.enterView entries).serverRemoval = none := by
    show (entries.foldl enterViewRow s).serverRemoval = none
    rw [foldl_serverRemoval serverRemoval_enterViewRow, hremoval]
  have hid : (s.enterView entries).clientId = s.clientId :=
    foldl_clientId clientId_enterViewRow entries s
  have hagrees : Agrees (s.enterView entries) ↔
      Match ((s.ownEntered entries).foldl enterOwn
        (s.currentChannelId, s.clients.find? s.clientId)) := by
    rw [agrees_iff_match, hid, records_enterView]
    exact forall_prop_of_true hremoval'
  rw [hagrees]
  clear hagrees
  unfold EnterAgrees
  by_cases hsettled : Settled (s.clients.find? s.clientId)
  · rw [match_foldl_enterOwn_iff hsettled]
    refine iff_of_true (.inr hmatch) fun self first rest hself hknown hchannel _ => ?_
    exact absurd (hsettled self hself hknown) hchannel
  · -- the placeholder keeps its channel at the first own row, and is settled behind it
    unfold Settled at hsettled
    push Not at hsettled
    obtain ⟨self, hself, hknown, hchannel⟩ := hsettled
    rw [hself] at hmatch ⊢
    have hcurrent : self.channelId = s.currentChannelId := hmatch hchannel
    obtain hown | ⟨first, rest, hown⟩ : s.ownEntered entries = [] ∨
        ∃ first rest, s.ownEntered entries = first :: rest := by
      cases s.ownEntered entries with
      | nil => exact .inl rfl
      | cons first rest => exact .inr ⟨first, rest, rfl⟩
    · rw [hown]
      refine iff_of_true hmatch fun self' first rest _ _ _ hrows => ?_
      cases hrows
    · rw [hown, List.foldl_cons, match_foldl_enterOwn_iff (settled_enterOwn _ first),
        match_enterOwn_placeholder hknown hchannel hcurrent]
      constructor
      · rintro h self' first' rest' hself' - - hrows
        cases hself'
        cases hrows
        rwa [← or_assoc, or_comm]
      · intro h
        rw [or_comm, or_assoc]
        exact h self first rest rfl hknown hchannel rfl

end Entered

/-! ## Moved -/

section Moved

/-- What an own row does to the two records. -/
def moveOwn (records : ℕ × Option Client) (entry : ClientMovedEntry) : ℕ × Option Client :=
  (if entry.channelId = 0 then records.1 else entry.channelId,
    some { records.2.getD {} with id := entry.id, channelId := entry.channelId })

theorem match_moveOwn (records : ℕ × Option Client) (entry : ClientMovedEntry) :
    Match (moveOwn records entry) := fun h => (if_neg h).symm

theorem match_foldl_moveOwn {records : ℕ × Option Client} (h : Match records)
    (entries : List ClientMovedEntry) : Match (entries.foldl moveOwn records) := by
  induction entries generalizing records with
  | nil => exact h
  | cons entry entries ih => exact ih (match_moveOwn records entry)

theorem records_moved (s : Session) (entries : List ClientMovedEntry) :
    ((s.moved entries).currentChannelId, (s.moved entries).clients.find? s.clientId) =
      (entries.filter fun entry => entry.id = s.clientId).foldl moveOwn
        (s.currentChannelId, s.clients.find? s.clientId) := by
  have hstore : (s.moved entries).clients =
      entries.foldl (fun clients entry => clients.move entry.id entry.channelId) s.clients := by
    show ClientStore.applyMoved entries (entries.foldl movedRow s).clients = _
    rw [readsOwn_movedRow.foldl_clients]
    rfl
  rw [hstore]
  refine records_foldl clientId_movedRow (fun s entry h => ?_) (fun clients entry c hc => ?_)
    (fun s entry clients h => ?_) entries s s.clients
  · obtain ⟨events, hrow⟩ := movedRow_of_ne h
    rw [hrow]
  · rw [ClientStore.find?_move, if_neg hc]
  · rw [movedRow_of_own h, ClientStore.find?_move, if_pos h.symm, ← h,
      currentChannelId_enterChannel]
    rfl

theorem agrees_moved {s : Session} (h : Agrees s) (entries : List ClientMovedEntry) :
    Agrees (s.moved entries) := by
  have hid : (s.moved entries).clientId = s.clientId :=
    foldl_clientId clientId_movedRow entries s
  have hremoval : (s.moved entries).serverRemoval = s.serverRemoval :=
    foldl_serverRemoval serverRemoval_movedRow entries s
  rw [agrees_iff_match, hid, hremoval, records_moved]
  exact fun hnone => match_foldl_moveOwn ((agrees_iff_match s).1 h hnone) _

end Moved

/-! ## Left -/

section Left

theorem leaveClients_own (subscribed : Finset ℕ) (clientId : ℕ) (entries : List ClientLeftViewEntry)
    (clients : ClientStore) :
    (entries.foldl (leaveClients subscribed clientId) clients).find? clientId =
      clients.find? clientId := by
  induction entries generalizing clients with
  | nil => rfl
  | cons entry entries ih =>
    rw [List.foldl_cons, ih, find?_leaveClients, if_neg]
    rintro ⟨h, hne⟩
    exact hne h.symm

/-- The own client is where its last row leads. -/
theorem currentChannelId_foldl_leftViewRow (entries : List ClientLeftViewEntry) (s : Session) :
    (entries.foldl leftViewRow s).currentChannelId =
      ((s.ownLeft entries).getLast?.map ClientLeftViewEntry.toChannelId).getD
        s.currentChannelId := by
  unfold ownLeft
  induction entries generalizing s with
  | nil => rfl
  | cons entry entries ih =>
    rw [List.foldl_cons, ih, clientId_leftViewRow]
    by_cases h : entry.id = s.clientId
    · have hrow : (leftViewRow s entry).currentChannelId = entry.toChannelId := by
        rw [leftViewRow_of_own h]
        unfold leaveTo
        split_ifs with hto
        · rfl
        · exact (not_not.1 hto).symm
      rw [hrow, List.filter_cons_of_pos (by simpa using h), List.getLast?_cons]
      cases (entries.filter fun entry => entry.id = s.clientId).getLast? <;> rfl
    · obtain ⟨events, hrow⟩ := leftViewRow_of_ne h
      rw [hrow, List.filter_cons_of_neg (by simpa using h)]

/-- The server removed the own client if one of its rows leads nowhere. -/
theorem serverRemoval_foldl_leftViewRow (entries : List ClientLeftViewEntry) (s : Session) :
    (entries.foldl leftViewRow s).serverRemoval = none ↔
      s.serverRemoval = none ∧ ∀ entry ∈ s.ownLeft entries, entry.toChannelId ≠ 0 := by
  unfold ownLeft
  induction entries generalizing s with
  | nil => simp
  | cons entry entries ih =>
    rw [List.foldl_cons, ih, clientId_leftViewRow]
    by_cases h : entry.id = s.clientId
    · have hrow : (leftViewRow s entry).serverRemoval = none ↔
          s.serverRemoval = none ∧ entry.toChannelId ≠ 0 := by
        rw [leftViewRow_of_own h]
        unfold leaveTo
        split_ifs with hto
        · exact (and_iff_left hto).symm
        · simp [hto]
      rw [hrow, List.filter_cons_of_pos (by simpa using h), List.forall_mem_cons, and_assoc]
    · obtain ⟨events, hrow⟩ := leftViewRow_of_ne h
      rw [hrow, List.filter_cons_of_neg (by simpa using h)]

theorem agrees_leftView_iff {s : Session} (h : Agrees s) (hremoval : s.serverRemoval = none)
    (entries : List ClientLeftViewEntry) : Agrees (s.leftView entries) ↔ s.LeftAgrees entries := by
  have hself : (s.leftView entries).selfChannelId = s.selfChannelId := by
    unfold selfChannelId
    rw [leftView_eq, clientId_setClients, clients_setClients, clientId_foldl_leftViewRow,
      leaveClients_own]
  have hcurrent : (s.leftView entries).currentChannelId =
      ((s.ownLeft entries).getLast?.map ClientLeftViewEntry.toChannelId).getD
        s.currentChannelId := by
    rw [leftView_eq, currentChannelId_setClients, currentChannelId_foldl_leftViewRow]
  have hnone : (s.leftView entries).serverRemoval = none ↔
      ∀ entry ∈ s.ownLeft entries, entry.toChannelId ≠ 0 := by
    rw [leftView_eq]
    exact (serverRemoval_foldl_leftViewRow entries s).trans (and_iff_right hremoval)
  unfold Agrees LeftAgrees
  rw [hself, hcurrent, hnone]
  cases hlast : (s.ownLeft entries).getLast? with
  | none => exact iff_of_true (fun _ => h hremoval) nofun
  | some last =>
    simp only [Option.map_some, Option.getD_some, Option.mem_def, Option.some.injEq, forall_eq']
    constructor
    · intro hagrees
      by_cases hgone : ∃ entry ∈ s.ownLeft entries, entry.toChannelId = 0
      · exact .inl hgone
      · push Not at hgone
        exact .inr (or_iff_not_imp_left.2 fun hne => (hagrees hgone hne).symm)
    · rintro (⟨entry, hmem, hto⟩ | hzero | hto) hstays hne
      · exact absurd hto (hstays entry hmem)
      · exact absurd hzero hne
      · exact hto.symm

end Left

/-! ## The other notifications -/

section Others

/-- What keeps the two records of the own channel apart from the clients. -/
theorem agrees_of_eq {s s' : Session} (h : Agrees s) (hself : s'.selfChannelId = s.selfChannelId)
    (hcurrent : s'.currentChannelId = s.currentChannelId)
    (hremoval : s'.serverRemoval = s.serverRemoval) : Agrees s' := by
  unfold Agrees
  rw [hself, hcurrent, hremoval]
  exact h

theorem agrees_updated {s : Session} (h : Agrees s) (entries : List ClientUpdatedEntry) :
    Agrees (s.updated entries) := by
  obtain ⟨currentNickname, hupdated⟩ := updated_eq entries s
  rw [hupdated]
  exact agrees_of_eq h (recordedChannelId_applyUpdated entries s.clients s.clientId) rfl rfl

theorem unsubscribeClients_own (channelIds : List ℕ) (s : Session) :
    (s.unsubscribeClients channelIds).find? s.clientId = s.clients.find? s.clientId := by
  unfold unsubscribeClients
  generalize s.clients = clients
  induction channelIds generalizing clients with
  | nil => rfl
  | cons channelId channelIds ih =>
    rw [List.foldl_cons, ih, ClientStore.find?_removeInChannel_self]

theorem agrees_applySubscription {s : Session} (h : Agrees s)
    (subscription : ChannelSubscriptionState) : Agrees (s.applySubscription subscription) := by
  unfold applySubscription
  dsimp only
  split_ifs
  · exact h
  · exact agrees_of_eq h (congrArg recordedChannelId (unsubscribeClients_own _ s)) rfl rfl

theorem agrees_channelDeleted {s : Session} (h : Agrees s) (deleted : ChannelDeleted) :
    Agrees (s.channelDeleted deleted) :=
  agrees_of_eq h (congrArg recordedChannelId
    (ClientStore.find?_removeInChannel_self s.clients deleted.channelId s.clientId)) rfl rfl

theorem agrees_quiet {s s' : Session} (h : Agrees s) (hquiet : Quiet s s') : Agrees s' := by
  refine agrees_of_eq h ?_ hquiet.currentChannelId hquiet.serverRemoval
  unfold selfChannelId
  rw [hquiet.clients, hquiet.clientId]

end Others

/-! ## Runs after login -/

section Runs

variable {env : Environment}

/-- Once removed, the own client stays removed. -/
theorem serverRemoval_of_effect {command : Command} {s s' : Session} (h : Effect command s s')
    (hremoval : s.serverRemoval ≠ none) : s'.serverRemoval ≠ none := by
  cases h with
  | entered =>
    rename_i entries _
    exact (foldl_serverRemoval serverRemoval_enterViewRow entries s).trans_ne hremoval
  | moved =>
    rename_i entries _
    exact (foldl_serverRemoval serverRemoval_movedRow entries s).trans_ne hremoval
  | left =>
    rw [leftView_eq]
    exact fun hnone => hremoval ((serverRemoval_foldl_leftViewRow _ s).1 hnone).1
  | updated =>
    rename_i entries _
    obtain ⟨currentNickname, hupdated⟩ := updated_eq entries s
    rw [hupdated]
    exact hremoval
  | subscription =>
    unfold applySubscription
    dsimp only
    split_ifs
    · exact hremoval
    · exact hremoval
  | deleted => exact hremoval
  | quiet hquiet => exact hquiet.serverRemoval.trans_ne hremoval

/-- **One command** keeps the records together if and only if it meets the condition. -/
theorem agrees_step_iff {s : Session} (h : Agrees s) (command : Command) :
    Agrees (step env s command) ↔ Keeps s command := by
  unfold Keeps
  by_cases hremoval : s.serverRemoval = none
  · rw [forall_prop_of_true hremoval]
    cases henter : parseClientEnterView command with
    | ok entries =>
      have hstep : step env s command = s.enterView entries :=
        final_of_eq_ok (process_enterView henter s)
      have hleft : ∀ entries, parseClientLeftView command ≠ .ok entries := fun _ hleft =>
        absurd ((name_of_parseClientEnterView henter).symm.trans (name_of_parseClientLeftView hleft))
          (by decide +kernel)
      rw [hstep, agrees_enterView_iff h hremoval]
      constructor
      · refine fun hkeeps => ⟨fun entries' heq => ?_, fun entries' heq => absurd heq (hleft _)⟩
        cases heq
        exact hkeeps
      · exact fun hkeeps => hkeeps.1 entries rfl
    | error e =>
      cases hleft : parseClientLeftView command with
      | ok entries =>
        have hstep : step env s command = s.leftView entries :=
          final_of_eq_ok (process_leftView hleft s)
        rw [hstep, agrees_leftView_iff h hremoval]
        constructor
        · refine fun hkeeps => ⟨fun _ heq => ?_, fun entries' heq => ?_⟩
          · cases heq
          · cases heq
            exact hkeeps
        · exact fun hkeeps => hkeeps.2 entries rfl
      | error e' =>
        refine iff_of_true ?_ ⟨fun _ heq => ?_, fun _ heq => ?_⟩
        · have heffect := effect_step env s command
          generalize step env s command = s' at heffect ⊢
          cases heffect with
          | entered h' => rw [henter] at h'; cases h'
          | moved => exact agrees_moved h _
          | left h' => rw [hleft] at h'; cases h'
          | updated => exact agrees_updated h _
          | subscription => exact agrees_applySubscription h _
          | deleted => exact agrees_channelDeleted h _
          | quiet hquiet => exact agrees_quiet h hquiet
        · cases heq
        · cases heq
  · refine iff_of_true (fun hnone => absurd hnone ?_) fun hnone => absurd hnone hremoval
    exact serverRemoval_of_effect (effect_step env s command) hremoval

/-- The own client is placed where its record says. -/
theorem placeSelf_eq {s : Session} (tree : List ChannelTreeEntry) (h : s.selfChannelId ≠ 0) :
    s.placeSelf tree = s.selfChannelId := by
  unfold selfChannelId recordedChannelId at h ⊢
  unfold placeSelf
  cases hself : s.clients.find? s.clientId with
  | none => simp [hself] at h
  | some self =>
    simp only [hself, Option.map_some, Option.getD_some] at h ⊢
    rw [Option.filter_some, if_pos (by simpa using h)]

theorem quiet_of_ok {α : Type} {m : Program α} (hm : Moves Quiet m) {s s' : Session} {a : α}
    (h : m s = .ok a s') : Quiet s s' := by
  rw [← final_of_eq_ok h]
  exact hm.final s

/-- Login puts the own client where its record says. -/
theorem agrees_finishLogin {s₀ s : Session} {before snapshot : List Command}
    (h : finishLogin env before snapshot s₀ = .ok () s) : Agrees s := by
  obtain ⟨_, s₁, -, h⟩ := (run_bind_eq_ok_iff _).1 h
  obtain ⟨_, s₂, hinitial, hconnected⟩ := (run_bind_eq_ok_iff _).1 h
  obtain ⟨_, s₃, -, hplace⟩ := (run_bind_eq_ok_iff _).1 hinitial
  rw [run_get_bind] at hplace
  obtain ⟨tree, -, hplace⟩ := run_lift_bind_eq_ok_iff.1 hplace
  obtain ⟨_, s₄, hcurrent, hplace⟩ := (run_bind_eq_ok_iff _).1 hplace
  obtain ⟨_, -, hplace⟩ := run_lift_bind_eq_ok_iff.1 hplace
  obtain ⟨_, s₅, hsubscribe, hplace⟩ := (run_bind_eq_ok_iff _).1 hplace
  obtain ⟨_, s₆, hsend, hplace⟩ := (run_bind_eq_ok_iff _).1 hplace
  rw [run_get_bind] at hplace
  obtain ⟨_, -, hcomplete⟩ := run_lift_bind_eq_ok_iff.1 hplace
  have h₄ : Agrees s₄ := by
    cases hcurrent
    exact fun _ hself => (placeSelf_eq (s := s₃) tree hself).symm
  have h₅ : Agrees s₅ := by
    cases hsubscribe
    exact h₄
  have h₆ : Agrees s₆ := agrees_quiet h₅ (quiet_of_ok (moves_onTransport _) hsend)
  have h₂ : Agrees s₂ := by
    cases hcomplete
    exact h₆
  exact agrees_quiet h₂ (quiet_of_ok (moves_onTransport _) hconnected)

/-- **The own channel.** After login, the two records name the same channel behind every command
as long as every command meets the condition, and no longer. -/
theorem agrees_iff {s₀ s : Session} {before snapshot : List Command}
    (hlogin : finishLogin env before snapshot s₀ = .ok () s) (commands : List Command) :
    (∀ front, front <+: commands → Agrees (front.foldl (step env) s)) ↔
      Runs.Along (step env) Keeps s commands :=
  Runs.along_iff_forall_prefix (I := Agrees) (fun _ command h => agrees_step_iff h command)
    (agrees_finishLogin hlogin) commands

/-- The own client leaves to channel 6. -/
def leaveToSix : Command where
  name := ascii "notifyclientleftview"
  rows := [rowOf [("clid", "1"), ("ctid", "6")]]

/-- A late notification that the own client entered channel 5. -/
def enterFive : Command where
  name := ascii "notifycliententerview"
  rows := [rowOf [("clid", "1"), ("ctid", "5"), ("client_nickname", "a")]]

/-- Behind a late notification the records still agree. -/
theorem agrees_enterFive : Agrees ([enterFive].foldl (step workingNetwork) loggedIn) := by
  refine (agrees_iff finishLogin_loggedIn [enterFive]).2
    ⟨fun _ => ⟨fun entries _ => ?_, ?_⟩, trivial⟩ [enterFive] List.prefix_rfl
  · rintro self first rest hself hknown
    have hrecord : (loggedIn.clients.find? loggedIn.clientId).any Client.detailsKnown := by
      decide +kernel
    rw [hself] at hrecord
    exact absurd hknown (by simpa using hrecord)
  · intro entries hleft
    exact absurd (name_of_parseClientLeftView hleft) (by decide +kernel)

/-- Behind the leave, the current channel is 6 and the record still says 5. -/
theorem not_agrees_leaveToSix : finishLogin workingNetwork [] snapshotOfServer { clientId := 1 } =
      .ok () loggedIn ∧
    [leaveToSix] <+: [leaveToSix] ∧ ¬ Agrees ([leaveToSix].foldl (step workingNetwork) loggedIn) := by
  refine ⟨finishLogin_loggedIn, List.prefix_rfl, fun h => ?_⟩
  have hself := h (by decide +kernel) (by decide +kernel)
  exact absurd hself (by decide +kernel)

end Runs

end Session

end TsCli
