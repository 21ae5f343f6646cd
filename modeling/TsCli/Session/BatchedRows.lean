import TsCli.Session.CommandEffects

/-!
# Rows of one command

A notification about several clients means what its rows mean one by one, since the handlers read
and write the record of a client only at its own row (`batch_eq`). The exception is a
`notifyclientleftview` that takes the own client to a channel that was not subscribed: the rows
before the own one are then judged by the subscription that it brings.
-/

namespace TsCli

namespace Session

open Exec

/-- The session with other clients. -/
def setClients (clients : ClientStore) (s : Session) : Session := { s with clients }

@[simp] theorem clients_setClients (clients : ClientStore) (s : Session) :
    (s.setClients clients).clients = clients := rfl

@[simp] theorem clientId_setClients (clients : ClientStore) (s : Session) :
    (s.setClients clients).clientId = s.clientId := rfl

@[simp] theorem currentChannelId_setClients (clients : ClientStore) (s : Session) :
    (s.setClients clients).currentChannelId = s.currentChannelId := rfl

@[simp] theorem channels_setClients (clients : ClientStore) (s : Session) :
    (s.setClients clients).channels = s.channels := rfl

@[simp] theorem initialStateComplete_setClients (clients : ClientStore) (s : Session) :
    (s.setClients clients).initialStateComplete = s.initialStateComplete := rfl

@[simp] theorem setClients_setClients (clients clients' : ClientStore) (s : Session) :
    (s.setClients clients).setClients clients' = s.setClients clients' := rfl

@[simp] theorem setClients_self (s : Session) : s.setClients s.clients = s := rfl

/-! ## Rows of different clients -/

section Rows

variable {ε : Type} {id : ε → ℕ} {row : Session → ε → Session} {write : Session → ε → ClientStore}

/-- A row reads only the record of its own client, and leaves the clients to the store. -/
def ReadsOwn (id : ε → ℕ) (row : Session → ε → Session) : Prop :=
  ∀ s entry clients, clients.find? (id entry) = s.clients.find? (id entry) →
    row (s.setClients clients) entry = (row s entry).setClients clients

/-- A row writes only the record of its own client. -/
def WritesOwn (id : ε → ℕ) (write : Session → ε → ClientStore) : Prop :=
  ∀ s entry c, c ≠ id entry → (write s entry).find? c = s.clients.find? c

/-- A row read and written before the next one. -/
def rowByRow (row : Session → ε → Session) (write : Session → ε → ClientStore) (s : Session)
    (entry : ε) : Session := (row s entry).setClients (write s entry)

theorem ReadsOwn.clients_eq (h : ReadsOwn id row) (s : Session) (entry : ε) :
    (row s entry).clients = s.clients := by
  have hself := h s entry s.clients rfl
  rw [setClients_self] at hself
  rw [hself, clients_setClients]

theorem ReadsOwn.foldl_clients (h : ReadsOwn id row) (entries : List ε) (s : Session) :
    (entries.foldl row s).clients = s.clients := by
  induction entries generalizing s with
  | nil => rfl
  | cons entry entries ih => rw [List.foldl_cons, ih, h.clients_eq]

theorem ReadsOwn.foldl_setClients (h : ReadsOwn id row) {entries : List ε} {s : Session}
    {clients : ClientStore}
    (hread : ∀ entry ∈ entries, clients.find? (id entry) = s.clients.find? (id entry)) :
    entries.foldl row (s.setClients clients) = (entries.foldl row s).setClients clients := by
  induction entries generalizing s with
  | nil => rfl
  | cons entry entries ih =>
    obtain ⟨hentry, hread⟩ := List.forall_mem_cons.1 hread
    rw [List.foldl_cons, List.foldl_cons, h s entry clients hentry]
    exact ih fun entry' hmem => by rw [hread entry' hmem, h.clients_eq]

theorem WritesOwn.foldl_find? (h : WritesOwn id write) {entries : List ε} {c : ℕ}
    (hc : ∀ entry ∈ entries, c ≠ id entry) (s : Session) :
    (entries.foldl (rowByRow row write) s).clients.find? c = s.clients.find? c := by
  induction entries generalizing s with
  | nil => rfl
  | cons entry entries ih =>
    obtain ⟨hentry, hc⟩ := List.forall_mem_cons.1 hc
    rw [List.foldl_cons, ih hc]
    exact h s entry c hentry

/-- Row by row, everything but the clients becomes what the rows alone make of it. -/
theorem foldl_rowByRow (hrow : ReadsOwn id row) (hwrite : WritesOwn id write) {entries : List ε}
    (hids : (entries.map id).Nodup) (s : Session) :
    entries.foldl (rowByRow row write) s =
      (entries.foldl row s).setClients (entries.foldl (rowByRow row write) s).clients := by
  induction entries generalizing s with
  | nil => rfl
  | cons entry entries ih =>
    rw [List.map_cons, List.nodup_cons] at hids
    obtain ⟨hentry, hids⟩ := hids
    have hread : ∀ entry' ∈ entries, (write s entry).find? (id entry') =
        (row s entry).clients.find? (id entry') := by
      intro entry' hmem
      rw [hrow.clients_eq]
      exact hwrite _ _ _ fun he => hentry (he ▸ List.mem_map_of_mem hmem)
    rw [List.foldl_cons, List.foldl_cons]
    refine (ih hids _).trans ?_
    show (entries.foldl row ((row s entry).setClients (write s entry))).setClients _ = _
    rw [hrow.foldl_setClients hread, setClients_setClients]

/-- Rows of different clients, split at one of them. -/
theorem ids_ne {front back : List ε} {entry : ε}
    (hids : ((front ++ entry :: back).map id).Nodup) :
    (∀ entry' ∈ front, id entry ≠ id entry') ∧ (∀ entry' ∈ back, id entry ≠ id entry') ∧
      ∀ entry' ∈ front, ∀ entry'' ∈ back, id entry' ≠ id entry'' := by
  rw [List.map_append, List.map_cons, List.nodup_append, List.nodup_cons] at hids
  obtain ⟨-, ⟨hback, -⟩, hfront⟩ := hids
  refine ⟨fun entry' hmem he => ?_, fun entry' hmem he => ?_, fun entry' hmem entry'' hmem' => ?_⟩
  · exact hfront _ (List.mem_map_of_mem hmem) _ List.mem_cons_self he.symm
  · exact hback (he ▸ List.mem_map_of_mem hmem)
  · exact hfront _ (List.mem_map_of_mem hmem) _ (List.mem_cons_of_mem _ (List.mem_map_of_mem hmem'))

/-- The record of a row's client is the one that the row wrote. -/
theorem foldl_rowByRow_find? (hwrite : WritesOwn id write) {front back : List ε} {entry : ε}
    (hids : ((front ++ entry :: back).map id).Nodup) (s : Session) :
    ((front ++ entry :: back).foldl (rowByRow row write) s).clients.find? (id entry) =
      (write (front.foldl (rowByRow row write) s) entry).find? (id entry) := by
  rw [List.foldl_append, List.foldl_cons, hwrite.foldl_find? (ids_ne hids).2.1]
  rfl

/-- Writes that depend on the clients alone. -/
theorem clients_foldl_rowByRow (row : Session → ε → Session)
    (write : ClientStore → ε → ClientStore) (entries : List ε) (s : Session) :
    (entries.foldl (rowByRow row fun s => write s.clients) s).clients =
      entries.foldl write s.clients := by
  induction entries generalizing s with
  | nil => rfl
  | cons entry entries ih =>
    rw [List.foldl_cons, List.foldl_cons, ih]
    rfl

/-- All rows and then all such writes, or row by row. -/
theorem foldl_setClients_eq (hrow : ReadsOwn id row) {write : ClientStore → ε → ClientStore}
    (hwrite : WritesOwn id fun s => write s.clients) {entries : List ε}
    (hids : (entries.map id).Nodup) (s : Session) :
    (entries.foldl row s).setClients (entries.foldl write s.clients) =
      entries.foldl (rowByRow row fun s => write s.clients) s := by
  rw [foldl_rowByRow hrow hwrite hids, clients_foldl_rowByRow]

end Rows

/-! ## The rows of the three notifications -/

theorem emitPresence_setClients (kind : ClientPresenceKind) (clientId channelId : ℕ)
    (clientName : Bytes) (clients : ClientStore) (s : Session) :
    emitPresence kind clientId channelId clientName (s.setClients clients) =
      (emitPresence kind clientId channelId clientName s).setClients clients := by
  unfold emitPresence
  by_cases h : channelId = 0 ∨ channelId ≠ s.currentChannelId
  · rw [if_pos h]
    exact if_pos h
  · rw [if_neg h]
    refine (if_neg h).trans ?_
    rw [channels_setClients]
    cases s.channels.channels.find? channelId <;> rfl

theorem enterChannel_setClients (channelId : ℕ) (clients : ClientStore) (s : Session) :
    enterChannel channelId (s.setClients clients) = (enterChannel channelId s).setClients clients := by
  unfold enterChannel
  split_ifs <;> rfl

theorem leaveTo_setClients (entry : ClientLeftViewEntry) (clients : ClientStore) (s : Session) :
    leaveTo entry (s.setClients clients) = (leaveTo entry s).setClients clients := by
  unfold leaveTo
  split_ifs <;> rfl

theorem readsOwn_enterViewRow : ReadsOwn ClientEnterViewEntry.id enterViewRow := by
  intro s entry clients h
  unfold enterViewRow
  simp only [clients_setClients, clientId_setClients, currentChannelId_setClients,
    initialStateComplete_setClients, h, enterChannel_setClients, emitPresence_setClients]
  split_ifs <;> rfl

theorem readsOwn_movedRow : ReadsOwn ClientMovedEntry.id movedRow := by
  intro s entry clients h
  unfold movedRow
  simp only [clients_setClients, clientId_setClients, currentChannelId_setClients,
    initialStateComplete_setClients, h, enterChannel_setClients, emitPresence_setClients]
  split_ifs <;> rfl

theorem readsOwn_leftViewRow : ReadsOwn ClientLeftViewEntry.id leftViewRow := by
  intro s entry clients h
  unfold leftViewRow
  simp only [clients_setClients, clientId_setClients, currentChannelId_setClients,
    initialStateComplete_setClients, h, leaveTo_setClients, emitPresence_setClients]
  split_ifs <;> rfl

theorem writesOwn_enter :
    WritesOwn ClientEnterViewEntry.id fun s => ClientStore.enter s.clients := by
  intro s entry c hc
  rw [ClientStore.find?_enter, if_neg hc]

theorem writesOwn_move : WritesOwn ClientMovedEntry.id
    fun s entry => s.clients.move entry.id entry.channelId := by
  intro s entry c hc
  rw [ClientStore.find?_move, if_neg hc]

theorem enterView_eq_foldl {entries : List ClientEnterViewEntry}
    (hids : (entries.map ClientEnterViewEntry.id).Nodup) (s : Session) :
    s.enterView entries = entries.foldl (fun s entry => s.enterView [entry]) s := by
  have hsingle : (fun (s : Session) entry => s.enterView [entry]) =
      rowByRow enterViewRow fun s => ClientStore.enter s.clients := by
    funext s entry
    show (enterViewRow s entry).setClients ((enterViewRow s entry).clients.enter entry) = _
    rw [readsOwn_enterViewRow.clients_eq]
    rfl
  rw [hsingle, ← foldl_setClients_eq readsOwn_enterViewRow writesOwn_enter hids]
  show (entries.foldl enterViewRow s).setClients (entries.foldl ClientStore.enter
    (entries.foldl enterViewRow s).clients) = _
  rw [readsOwn_enterViewRow.foldl_clients]

theorem moved_eq_foldl {entries : List ClientMovedEntry}
    (hids : (entries.map ClientMovedEntry.id).Nodup) (s : Session) :
    s.moved entries = entries.foldl (fun s entry => s.moved [entry]) s := by
  have hsingle : (fun (s : Session) entry => s.moved [entry]) =
      rowByRow movedRow fun s entry => s.clients.move entry.id entry.channelId := by
    funext s entry
    show (movedRow s entry).setClients ((movedRow s entry).clients.move _ _) = _
    rw [readsOwn_movedRow.clients_eq]
    rfl
  have hbatch : (entries.foldl movedRow s).setClients (ClientStore.applyMoved entries s.clients) =
      entries.foldl (rowByRow movedRow fun s entry => s.clients.move entry.id entry.channelId) s :=
    foldl_setClients_eq readsOwn_movedRow writesOwn_move hids s
  rw [hsingle, ← hbatch]
  show (entries.foldl movedRow s).setClients (ClientStore.applyMoved entries
    (entries.foldl movedRow s).clients) = _
  rw [readsOwn_movedRow.foldl_clients]

/-! ## Clients that leave -/

/-- What a row of `notifyclientleftview` does to the clients. -/
def leaveClients (subscribed : Finset ℕ) (clientId : ℕ) (clients : ClientStore)
    (entry : ClientLeftViewEntry) : ClientStore :=
  if entry.id = clientId then clients
  else if entry.toChannelId ≠ 0 ∧ entry.toChannelId ∈ subscribed then
    clients.move entry.id entry.toChannelId
  else clients.remove entry.id

theorem leaveRow_eq (s : Session) (entry : ClientLeftViewEntry) : leaveRow s entry =
    s.setClients (leaveClients s.channels.subscribedChannels s.clientId s.clients entry) := by
  unfold leaveRow leaveClients
  split_ifs <;> rfl

theorem foldl_leaveRow (entries : List ClientLeftViewEntry) (s : Session) :
    entries.foldl leaveRow s = s.setClients
      (entries.foldl (leaveClients s.channels.subscribedChannels s.clientId) s.clients) := by
  induction entries generalizing s with
  | nil => rfl
  | cons entry entries ih =>
    rw [List.foldl_cons, ih, leaveRow_eq]
    rfl

/-- The client of a row is remembered where it went to a subscribed channel. -/
theorem find?_leaveClients (subscribed : Finset ℕ) (clientId : ℕ) (clients : ClientStore)
    (entry : ClientLeftViewEntry) (c : ℕ) :
    (leaveClients subscribed clientId clients entry).find? c =
      if c = entry.id ∧ entry.id ≠ clientId then
        if entry.toChannelId ≠ 0 ∧ entry.toChannelId ∈ subscribed then
          some { (clients.find? entry.id).getD {} with
            id := entry.id, channelId := entry.toChannelId }
        else none
      else clients.find? c := by
  unfold leaveClients
  by_cases hown : entry.id = clientId
  · rw [if_pos hown, if_neg fun h => h.2 hown]
  · have hown' : c = entry.id ∧ entry.id ≠ clientId ↔ c = entry.id := and_iff_left hown
    rw [if_neg hown, if_congr hown' rfl rfl]
    by_cases hto : entry.toChannelId ≠ 0 ∧ entry.toChannelId ∈ subscribed
    · rw [if_pos hto, if_pos hto, ClientStore.find?_move]
    · rw [if_neg hto, if_neg hto, ClientStore.find?_remove]

theorem writesOwn_leave : WritesOwn ClientLeftViewEntry.id fun s =>
    leaveClients s.channels.subscribedChannels s.clientId s.clients := by
  intro s entry c hc
  rw [find?_leaveClients, if_neg fun h => hc h.1]

theorem writesOwn_leaveClients (subscribed : Finset ℕ) (clientId : ℕ) :
    WritesOwn ClientLeftViewEntry.id fun s => leaveClients subscribed clientId s.clients := by
  intro s entry c hc
  rw [find?_leaveClients, if_neg fun h => hc h.1]

theorem clientId_leftViewRow (s : Session) (entry : ClientLeftViewEntry) :
    (leftViewRow s entry).clientId = s.clientId := by
  by_cases h : entry.id = s.clientId
  · rw [leftViewRow_of_own h]
    unfold leaveTo
    split_ifs <;> rfl
  · obtain ⟨events, hevents⟩ := leftViewRow_of_ne h
    rw [hevents]

/-- The subscriptions behind a row: the own client brings that of the channel it goes to. -/
theorem mem_subscribedChannels_leftViewRow {s : Session} {entry : ClientLeftViewEntry} {x : ℕ} :
    x ∈ (leftViewRow s entry).channels.subscribedChannels ↔
      x ∈ s.channels.subscribedChannels ∨
        entry.id = s.clientId ∧ entry.toChannelId = x ∧ x ≠ 0 := by
  by_cases h : entry.id = s.clientId
  · rw [leftViewRow_of_own h]
    unfold leaveTo ChannelStore.setSubscribed
    by_cases hto : entry.toChannelId = 0
    · rw [if_neg (not_not.2 hto)]
      simp only [h, hto, true_and]
      exact ⟨.inl, fun hx => hx.elim id fun hx => absurd hx.1.symm hx.2⟩
    · rw [if_pos hto]
      simp only [if_neg hto, if_true, Finset.mem_insert, h, true_and]
      constructor
      · rintro (rfl | hx)
        · exact .inr ⟨rfl, hto⟩
        · exact .inl hx
      · rintro (hx | ⟨rfl, -⟩)
        · exact .inr hx
        · exact .inl rfl
  · obtain ⟨events, hevents⟩ := leftViewRow_of_ne h
    rw [hevents]
    simp [h]

theorem clientId_foldl_leftViewRow (entries : List ClientLeftViewEntry) (s : Session) :
    (entries.foldl leftViewRow s).clientId = s.clientId := foldl_clientId clientId_leftViewRow entries s

theorem mem_subscribedChannels_foldl_leftViewRow {entries : List ClientLeftViewEntry} {s : Session}
    {x : ℕ} : x ∈ (entries.foldl leftViewRow s).channels.subscribedChannels ↔
      x ∈ s.channels.subscribedChannels ∨
        ∃ entry ∈ entries, entry.id = s.clientId ∧ entry.toChannelId = x ∧ x ≠ 0 := by
  induction entries generalizing s with
  | nil => simp
  | cons entry entries ih =>
    rw [List.foldl_cons, ih, mem_subscribedChannels_leftViewRow, clientId_leftViewRow,
      List.exists_mem_cons_iff, or_assoc]

/-- A row before the own one goes where the own client goes, to a channel that is not subscribed. -/
def LeavesAhead (s : Session) (entries : List ClientLeftViewEntry) : Prop :=
  ∃ front entry back own, entries = front ++ entry :: back ∧ own ∈ back ∧ own.id = s.clientId ∧
    own.toChannelId ≠ 0 ∧ own.toChannelId ∉ s.channels.subscribedChannels ∧
    entry.toChannelId = own.toChannelId

/-- The rows one by one. -/
abbrev leaveOneByOne (s : Session) (entry : ClientLeftViewEntry) : Session :=
  rowByRow leftViewRow (fun s => leaveClients s.channels.subscribedChannels s.clientId s.clients) s
    entry

theorem leftView_singleton (s : Session) (entry : ClientLeftViewEntry) :
    s.leftView [entry] = leaveOneByOne s entry := by
  show leaveRow (leftViewRow s entry) entry = _
  rw [leaveRow_eq, clientId_leftViewRow, readsOwn_leftViewRow.clients_eq]
  -- the subscription that the own row brings is not asked for by this row
  have hwrite : leaveClients (leftViewRow s entry).channels.subscribedChannels s.clientId s.clients
      entry = leaveClients s.channels.subscribedChannels s.clientId s.clients entry := by
    by_cases h : entry.id = s.clientId
    · unfold leaveClients
      rw [if_pos h, if_pos h]
    · obtain ⟨events, hevents⟩ := leftViewRow_of_ne h
      rw [hevents]
  rw [hwrite]
  rfl

theorem leftView_eq (entries : List ClientLeftViewEntry) (s : Session) :
    s.leftView entries = (entries.foldl leftViewRow s).setClients
      (entries.foldl (leaveClients (entries.foldl leftViewRow s).channels.subscribedChannels
        s.clientId) s.clients) := by
  unfold leftView
  rw [foldl_leaveRow, clientId_foldl_leftViewRow, readsOwn_leftViewRow.foldl_clients]

section Left

variable {entries front back : List ClientLeftViewEntry} {entry : ClientLeftViewEntry} {s : Session}

/-- The record of a row's client behind a batch with these subscriptions. -/
theorem find?_foldl_leaveClients (subscribed : Finset ℕ) (clientId : ℕ)
    (hids : ((front ++ entry :: back).map ClientLeftViewEntry.id).Nodup) :
    ((front ++ entry :: back).foldl (leaveClients subscribed clientId) s.clients).find? entry.id =
      (leaveClients subscribed clientId s.clients entry).find? entry.id := by
  have hwrite := writesOwn_leaveClients subscribed clientId
  rw [← clients_foldl_rowByRow fun s _ => s, foldl_rowByRow_find? hwrite hids,
    find?_leaveClients, find?_leaveClients, hwrite.foldl_find? (ids_ne hids).1]

/-- The record of a row's client behind the rows one by one. -/
theorem find?_foldl_leaveOneByOne
    (hids : ((front ++ entry :: back).map ClientLeftViewEntry.id).Nodup) :
    ((front ++ entry :: back).foldl leaveOneByOne s).clients.find? entry.id =
      (leaveClients (front.foldl leftViewRow s).channels.subscribedChannels s.clientId s.clients
        entry).find? entry.id := by
  have hfrontIds : (front.map ClientLeftViewEntry.id).Nodup := by
    rw [List.map_append, List.nodup_append] at hids
    exact hids.1
  have hstate := foldl_rowByRow readsOwn_leftViewRow writesOwn_leave hfrontIds s
  rw [foldl_rowByRow_find? writesOwn_leave hids, find?_leaveClients, find?_leaveClients,
    writesOwn_leave.foldl_find? (ids_ne hids).1]
  rw [hstate, channels_setClients, clientId_setClients, clientId_foldl_leftViewRow]

end Left

/-- Batched and row by row agree if and only if no row is ahead of the own one. -/
theorem leftView_eq_foldl_iff {entries : List ClientLeftViewEntry}
    (hids : (entries.map ClientLeftViewEntry.id).Nodup) (s : Session) :
    s.leftView entries = entries.foldl (fun s entry => s.leftView [entry]) s ↔
      ¬ LeavesAhead s entries := by
  have hsingle : (fun (s : Session) entry => s.leftView [entry]) = leaveOneByOne :=
    funext fun s => funext fun entry => leftView_singleton s entry
  rw [hsingle, leftView_eq]
  constructor
  · rintro heq ⟨front, entry, back, own, rfl, hown, hid, hto, hnot, hsame⟩
    obtain ⟨-, hback, hfront⟩ := ids_ne hids
    have hne : entry.id ≠ s.clientId := fun he => hback own hown (he.trans hid.symm)
    have hclients := congrArg (fun s : Session => s.clients.find? entry.id) heq
    simp only [clients_setClients] at hclients
    rw [find?_foldl_leaveClients _ _ hids, find?_foldl_leaveOneByOne hids, find?_leaveClients,
      find?_leaveClients, if_pos (And.intro rfl hne), if_pos (And.intro rfl hne), if_pos, if_neg]
      at hclients
    · cases hclients
    · rintro ⟨-, hmem⟩
      rw [hsame, mem_subscribedChannels_foldl_leftViewRow] at hmem
      obtain hmem | ⟨entry', hentry', hid', -⟩ := hmem
      · exact hnot hmem
      · exact hfront entry' hentry' own hown (hid'.trans hid.symm)
    · refine ⟨hsame ▸ hto, mem_subscribedChannels_foldl_leftViewRow.2 (.inr ⟨own, ?_, hid, ?_⟩)⟩
      · exact List.mem_append_right _ (List.mem_cons_of_mem _ hown)
      · exact ⟨hsame.symm, hsame ▸ hto⟩
  · intro hnone
    rw [foldl_rowByRow readsOwn_leftViewRow writesOwn_leave hids s]
    refine congrArg (fun clients => setClients clients _) (Registry.ext fun c => ?_)
    by_cases hc : ∃ entry ∈ entries, entry.id = c
    · obtain ⟨entry, hentry, rfl⟩ := hc
      obtain ⟨front, back, rfl⟩ := List.append_of_mem hentry
      rw [find?_foldl_leaveClients _ _ hids, find?_foldl_leaveOneByOne hids, find?_leaveClients,
        find?_leaveClients]
      by_cases hown : entry.id = s.clientId
      · rw [if_neg fun h => h.2 hown, if_neg fun h => h.2 hown]
      · rw [if_pos (And.intro rfl hown), if_pos (And.intro rfl hown)]
        refine if_congr (and_congr_right fun hto => ?_) rfl rfl
        rw [mem_subscribedChannels_foldl_leftViewRow, mem_subscribedChannels_foldl_leftViewRow]
        constructor
        · rintro (hmem | ⟨own, hmem, hid, hsame, -⟩)
          · exact .inl hmem
          obtain hmem | hmem := List.mem_append.1 hmem
          · exact .inr ⟨own, hmem, hid, hsame, hto⟩
          obtain rfl | hmem := List.mem_cons.1 hmem
          · exact absurd hid hown
          -- the own row comes later, so its channel was subscribed before
          · refine .inl (not_not.1 fun hnot => hnone ⟨front, entry, back, own, rfl, hmem, hid, ?_⟩)
            exact ⟨hsame ▸ hto, hsame ▸ hnot, hsame.symm⟩
        · rintro (hmem | ⟨own, hmem, hid, hsame, -⟩)
          · exact .inl hmem
          · exact .inr ⟨own, List.mem_append_left _ hmem, hid, hsame, hto⟩
    · have hnot : ∀ entry ∈ entries, c ≠ entry.id := fun entry hmem he => hc ⟨entry, hmem, he.symm⟩
      rw [writesOwn_leave.foldl_find? hnot, ← clients_foldl_rowByRow fun s _ => s,
        (writesOwn_leaveClients _ _).foldl_find? hnot]

/-! ## Commands -/

/-- The rows of a command, each as a command of its own. -/
def singleRows (command : Command) : List Command :=
  command.rows.map fun row => { command with rows := [row] }

variable {env : Environment}

theorem process_enterView {command : Command} {entries : List ClientEnterViewEntry}
    (h : parseClientEnterView command = .ok entries) (s : Session) :
    processCommand env command s = .ok () (s.enterView entries) := by
  unfold processCommand
  rw [name_of_parseClientEnterView h]
  iterate 7 rw [if_neg (by decide +kernel)]
  rw [if_pos rfl, h]
  rfl

theorem process_moved {command : Command} {entries : List ClientMovedEntry}
    (h : parseClientMoved command = .ok entries) (s : Session) :
    processCommand env command s = .ok () (s.moved entries) := by
  unfold processCommand
  rw [name_of_parseClientMoved h]
  iterate 8 rw [if_neg (by decide +kernel)]
  rw [if_pos rfl, h]
  rfl

theorem process_leftView {command : Command} {entries : List ClientLeftViewEntry}
    (h : parseClientLeftView command = .ok entries) (s : Session) :
    processCommand env command s = .ok () (s.leftView entries) := by
  unfold processCommand
  rw [name_of_parseClientLeftView h]
  iterate 9 rw [if_neg (by decide +kernel)]
  rw [if_pos rfl, h]
  rfl

/-- A notification whose parser reads row by row, as its rows one by one. -/
theorem process_singleRows {α : Type} {parse : Command → Except Failure (List α)}
    {parseRow : CommandRow → Except Failure α} {name : Bytes} {message emptyMessage : String}
    {branch : List α → Session → Session}
    (hparse : ∀ command, parse command = do
      throwIf (command.name ≠ name) message
      throwIf (command.rows = []) emptyMessage
      command.rows.mapM parseRow)
    (hprocess : ∀ {command entries}, parse command = .ok entries → ∀ s,
      processCommand env command s = .ok () (branch entries s))
    {command : Command} {entries : List α} (h : parse command = .ok entries) (s : Session) :
    processCommands env (singleRows command) s =
      .ok () (entries.foldl (fun s entry => branch [entry] s) s) := by
  rw [hparse] at h
  obtain ⟨_, hname, hrest⟩ := bind_eq_ok h
  obtain ⟨_, -, hrows⟩ := bind_eq_ok hrest
  clear h hrest
  have hsingle {row : CommandRow} {entry : α} (hrow : parseRow row = .ok entry) :
      parse { command with rows := [row] } = .ok [entry] := by
    rw [hparse, throwIf_bind_of_not (not_of_throwIf hname), throwIf_bind_of_not (by simp)]
    simp [hrow]
  unfold singleRows
  generalize command.rows = rows at hrows
  induction rows generalizing entries s with
  | nil =>
    cases hrows
    rfl
  | cons row rows ih =>
    rw [List.mapM_cons] at hrows
    obtain ⟨entry, hrow, hrest⟩ := bind_eq_ok hrows
    obtain ⟨entries', htail, hentries⟩ := bind_eq_ok hrest
    cases hentries
    rw [List.map_cons, processCommands, run_bind_of_ok _ (hprocess (hsingle hrow) s)]
    exact ih (branch [entry] s) htail

/-- **Batches.** A notification that clients entered or moved means what its rows mean one by one;
one that clients left does if and only if no row is ahead of the own one. -/
theorem processCommand_eq_singleRows (env : Environment) (s : Session) (command : Command) :
    (∀ entries, parseClientEnterView command = .ok entries →
      (entries.map ClientEnterViewEntry.id).Nodup →
      processCommand env command s = processCommands env (singleRows command) s) ∧
    (∀ entries, parseClientMoved command = .ok entries →
      (entries.map ClientMovedEntry.id).Nodup →
      processCommand env command s = processCommands env (singleRows command) s) ∧
    ∀ entries, parseClientLeftView command = .ok entries →
      (entries.map ClientLeftViewEntry.id).Nodup →
      (processCommand env command s = processCommands env (singleRows command) s ↔
        ¬ LeavesAhead s entries) := by
  refine ⟨fun entries h hids => ?_, fun entries h hids => ?_, fun entries h hids => ?_⟩
  · rw [process_enterView h, process_singleRows (fun _ => rfl) process_enterView h,
      enterView_eq_foldl hids]
  · rw [process_moved h, process_singleRows (fun _ => rfl) process_moved h, moved_eq_foldl hids]
  · rw [process_leftView h, process_singleRows (fun _ => rfl) process_leftView h,
      ← leftView_eq_foldl_iff hids]
    constructor
    · exact fun heq => by injection heq
    · exact fun heq => by rw [heq]

/-- Client 2 leaves to channel 6, and so does the own client. -/
def leaveTogether : Command where
  name := ascii "notifyclientleftview"
  rows := [rowOf [("clid", "2"), ("ctid", "6")], rowOf [("clid", "1"), ("ctid", "6")]]

/-- The same, the own client first. -/
def leaveBehind : Command where
  name := ascii "notifyclientleftview"
  rows := [rowOf [("clid", "1"), ("ctid", "6")], rowOf [("clid", "2"), ("ctid", "6")]]

def enterTogether : Command where
  name := ascii "notifycliententerview"
  rows := [rowOf [("clid", "3"), ("ctid", "5"), ("client_nickname", "c")],
    rowOf [("clid", "1"), ("ctid", "6"), ("client_nickname", "a")]]

def moveTogether : Command where
  name := ascii "notifyclientmoved"
  rows := [rowOf [("clid", "2"), ("ctid", "6"), ("reasonid", "0")],
    rowOf [("clid", "1"), ("ctid", "6"), ("reasonid", "0")]]

/-- Behind the own client, every row means what it says. -/
theorem processCommand_eq_singleRows_lobby :
    processCommand workingNetwork enterTogether lobby =
      processCommands workingNetwork (singleRows enterTogether) lobby ∧
    processCommand workingNetwork moveTogether lobby =
      processCommands workingNetwork (singleRows moveTogether) lobby ∧
    processCommand workingNetwork leaveBehind lobby =
      processCommands workingNetwork (singleRows leaveBehind) lobby := by
  refine ⟨(processCommand_eq_singleRows workingNetwork lobby enterTogether).1
      [{ id := 3, channelId := 5, nickname := ascii "c" },
        { id := 1, channelId := 6, nickname := ascii "a" }] (by decide +kernel) (by decide),
    (processCommand_eq_singleRows workingNetwork lobby moveTogether).2.1
      [{ id := 2, channelId := 6, reasonId := 0 }, { id := 1, channelId := 6, reasonId := 0 }]
      (by decide +kernel) (by decide),
    ((processCommand_eq_singleRows workingNetwork lobby leaveBehind).2.2
      [{ id := 1, toChannelId := 6 }, { id := 2, toChannelId := 6 }]
      (by decide +kernel) (by decide)).2 ?_⟩
  rintro ⟨front, entry, back, own, hrows, hown, hid, -⟩
  obtain _ | ⟨first, front⟩ := front
  · cases hrows
    have hown : own = { id := 2, toChannelId := 6 } := by simpa using hown
    rw [hown] at hid
    exact absurd hid (by decide)
  · -- the row behind the first one is the last
    have hlength := congrArg List.length hrows
    simp only [List.cons_append, List.length_cons, List.length_append, List.length_nil] at hlength
    rw [List.eq_nil_of_length_eq_zero (show back.length = 0 by omega)] at hown
    cases hown

/-- Ahead of the own client, client 2 is remembered in a batch and forgotten row by row. -/
theorem processCommand_ne_singleRows_lobby :
    parseClientLeftView leaveTogether =
      .ok [{ id := 2, toChannelId := 6 }, { id := 1, toChannelId := 6 }] ∧
    processCommand workingNetwork leaveTogether lobby ≠
      processCommands workingNetwork (singleRows leaveTogether) lobby := by
  refine ⟨by decide +kernel, fun heq => ?_⟩
  have hbatch : ((final (processCommand workingNetwork leaveTogether) lobby).clients.find? 2).isSome := by
    decide +kernel
  have hrows : ((final (processCommands workingNetwork (singleRows leaveTogether))
      lobby).clients.find? 2).isSome = false := by decide +kernel
  have hfinal : final (processCommand workingNetwork leaveTogether) lobby =
      final (processCommands workingNetwork (singleRows leaveTogether)) lobby := by
    unfold final
    rw [heq]
  rw [hfinal, hrows] at hbatch
  cases hbatch

end Session

end TsCli
