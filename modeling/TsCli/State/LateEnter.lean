import TsCli.State.ClientStore

/-!
# Enter notifications that come late

A move may arrive before the notification that the client has entered. Row by row, what a store
keeps of a client depends on the rows of that client alone, so the position of an enter row among
the moves of its client can be followed on one optional record. Before the enter row this record is
a placeholder with the channel of the last move; the enter row keeps that channel and brings the
details, and the moves behind it change the channel only.
-/

namespace TsCli.ClientStore

/-! ## Rows and messages -/

/-- A row of a message about clients. -/
inductive Row
  | enter (entry : ClientEnterViewEntry)
  | move (entry : ClientMovedEntry)
  | leave (entry : ClientLeftViewEntry)
  | update (entry : ClientUpdatedEntry)

/-- The messages that `Apply` takes. -/
inductive Message
  | enterView (entries : List ClientEnterViewEntry)
  | moved (entries : List ClientMovedEntry)
  | leftView (entries : List ClientLeftViewEntry)
  | updated (entries : List ClientUpdatedEntry)

/-- The client that a row is about. -/
def Row.client : Row → ℕ
  | .enter entry => entry.id
  | .move entry => entry.id
  | .leave entry => entry.id
  | .update entry => entry.id

def Message.rows : Message → List Row
  | .enterView entries => entries.map .enter
  | .moved entries => entries.map .move
  | .leftView entries => entries.map .leave
  | .updated entries => entries.map .update

/-- The overloads of `ClientStore::Apply`. -/
def apply (clients : ClientStore) : Message → ClientStore
  | .enterView entries => applyEnterView entries clients
  | .moved entries => applyMoved entries clients
  | .leftView entries => applyLeftView entries clients
  | .updated entries => applyUpdated entries clients

/-- The body of the loop of `Apply` for a row. -/
def applyRow (clients : ClientStore) : Row → ClientStore
  | .enter entry => clients.enter entry
  | .move entry => clients.move entry.id entry.channelId
  | .leave entry => clients.erase entry.id
  | .update entry => clients.update entry

theorem apply_eq (clients : ClientStore) (message : Message) :
    clients.apply message = message.rows.foldl applyRow clients := by
  cases message with
  | enterView entries => exact (List.foldl_map (g := applyRow) (f := Row.enter)).symm
  | moved entries => exact (List.foldl_map (g := applyRow) (f := Row.move)).symm
  | leftView entries => exact (List.foldl_map (g := applyRow) (f := Row.leave)).symm
  | updated entries => exact (List.foldl_map (g := applyRow) (f := Row.update)).symm

/-- Only the rows count, not how they are cut into messages. -/
theorem foldl_apply (clients : ClientStore) (messages : List Message) :
    messages.foldl apply clients = (messages.flatMap Message.rows).foldl applyRow clients := by
  induction messages generalizing clients with
  | nil => rfl
  | cons message messages ih =>
    rw [List.foldl_cons, ih, apply_eq, List.flatMap_cons, List.foldl_append]

/-! ## The record of one client -/

/-- What a row makes of the record of its client. -/
def applyOwn (record : Option Client) : Row → Option Client
  | .enter entry => some (enteredClient record entry)
  | .move entry => some { record.getD {} with id := entry.id, channelId := entry.channelId }
  | .leave _ => none
  | .update entry => some (updateFields entry (record.getD {}))

theorem find?_applyRow (clients : ClientStore) (row : Row) (c : ℕ) :
    (clients.applyRow row).find? c =
      if c = row.client then applyOwn (clients.find? row.client) row else clients.find? c := by
  cases row with
  | enter entry => exact find?_enter clients entry c
  | move entry => exact find?_move clients entry.id entry.channelId c
  | leave entry => exact Registry.find?_erase clients entry.id c
  | update entry => exact find?_update clients entry c

/-- The record of a client follows from its own rows. -/
theorem find?_foldl_applyRow (clients : ClientStore) (rows : List Row) (c : ℕ) :
    (rows.foldl applyRow clients).find? c =
      (rows.filter fun row => row.client = c).foldl applyOwn (clients.find? c) :=
  Registry.find?_foldl find?_applyRow rows clients c

/-- The channel that a row moves the client to. -/
def Row.target? (c : ℕ) : Row → Option ℕ
  | .move entry => if entry.id = c then some entry.channelId else none
  | _ => none

/-- The target of the last move of a client. -/
def lastTarget? (c : ℕ) (rows : List Row) : Option ℕ := (rows.filterMap (Row.target? c)).getLast?

/-- Every row of the client moves it to a channel. -/
def OnlyMoves (c : ℕ) (rows : List Row) : Prop :=
  ∀ row ∈ rows, row.client = c → ∃ entry, row = .move entry ∧ entry.channelId ≠ 0

theorem OnlyMoves.append {c : ℕ} {front back : List Row} :
    OnlyMoves c (front ++ back) ↔ OnlyMoves c front ∧ OnlyMoves c back := List.forall_mem_append

theorem lastTarget?_append_singleton (c : ℕ) (rows : List Row) (row : Row) :
    lastTarget? c (rows ++ [row]) = (row.target? c).or (lastTarget? c rows) := by
  unfold lastTarget?
  rw [List.filterMap_append]
  cases htarget : row.target? c with
  | none => simp [htarget]
  | some channelId => simp [htarget]

theorem target?_of_ne {c : ℕ} {row : Row} (h : row.client ≠ c) : row.target? c = none := by
  cases row with
  | move entry => exact if_neg h
  | _ => rfl

/-- Moves set the channel of the record, and its id where there was none. -/
theorem foldl_applyOwn_moves {c : ℕ} {rows : List Row} (hmoves : OnlyMoves c rows)
    (record : Option Client) :
    (rows.filter fun row => row.client = c).foldl applyOwn record =
      match lastTarget? c rows with
      | none => record
      | some channelId => some { record.getD {} with id := c, channelId } := by
  induction rows using List.reverseRecOn with
  | nil => rfl
  | append_singleton rows row ih =>
    obtain ⟨hfront, hrow⟩ := OnlyMoves.append.1 hmoves
    rw [List.filter_append, List.foldl_append, ih hfront, lastTarget?_append_singleton]
    by_cases hclient : row.client = c
    · obtain ⟨entry, rfl, -⟩ := hrow row (List.mem_singleton_self row) hclient
      have htarget : (Row.move entry).target? c = some entry.channelId := if_pos hclient
      rw [htarget, List.filter_cons_of_pos (by simpa using hclient), Option.some_or]
      subst hclient
      cases lastTarget? (Row.move entry).client rows <;> rfl
    · rw [target?_of_ne hclient, List.filter_cons_of_neg (by simpa using hclient), Option.none_or]
      rfl

/-- The last move is one to a channel. -/
theorem ne_zero_of_lastTarget? {c channelId : ℕ} {rows : List Row} (hmoves : OnlyMoves c rows)
    (h : lastTarget? c rows = some channelId) : channelId ≠ 0 := by
  obtain ⟨row, hrow, htarget⟩ := List.mem_filterMap.1 (List.mem_of_getLast? h)
  by_cases hclient : row.client = c
  · obtain ⟨entry, rfl, hne⟩ := hmoves row hrow hclient
    rw [show (Row.move entry).target? c = some entry.channelId from if_pos hclient] at htarget
    cases htarget
    exact hne
  · rw [target?_of_ne hclient] at htarget
    cases htarget

theorem lastTarget?_append (c : ℕ) (front back : List Row) :
    lastTarget? c (front ++ back) = (lastTarget? c back).or (lastTarget? c front) := by
  induction back using List.reverseRecOn with
  | nil => simp [lastTarget?]
  | append_singleton back row ih =>
    rw [← List.append_assoc, lastTarget?_append_singleton, lastTarget?_append_singleton, ih,
      Option.or_assoc]

/-! ## The enter row -/

/-- The record that an enter row leaves behind some moves, and other moves behind it. -/
theorem foldl_applyOwn_enter {entry : ClientEnterViewEntry} {front back : List Row}
    (hfront : OnlyMoves entry.id front) (hback : OnlyMoves entry.id back) :
    ((front ++ .enter entry :: back).filter fun row => row.client = entry.id).foldl applyOwn none =
      some { enteredClient none entry with
        channelId := (lastTarget? entry.id (front ++ back)).getD entry.channelId } := by
  rw [List.filter_append, List.foldl_append, foldl_applyOwn_moves hfront,
    List.filter_cons_of_pos (by simp [Row.client]), List.foldl_cons, foldl_applyOwn_moves hback,
    lastTarget?_append]
  cases hplaced : lastTarget? entry.id front with
  | none => cases lastTarget? entry.id back <;> rfl
  | some channelId =>
    -- the placeholder keeps its channel, as its details are not known
    have hkept : enteredClient (some { id := entry.id, channelId }) entry =
        { enteredClient none entry with channelId } := by
      have hchannel : enteredChannelId (some { id := entry.id, channelId }) entry.channelId =
          channelId := if_pos ⟨ne_zero_of_lastTarget? hfront hplaced, .inr rfl⟩
      unfold enteredClient
      rw [hchannel]
      rfl
    have happlied : applyOwn (some { id := entry.id, channelId }) (.enter entry) =
        some { enteredClient none entry with channelId } := congrArg some hkept
    show (match lastTarget? entry.id back with
      | none => applyOwn (some { id := entry.id, channelId }) (.enter entry)
      | some target => some { (applyOwn (some { id := entry.id, channelId })
          (.enter entry)).getD {} with id := entry.id, channelId := target }) = _
    rw [happlied]
    cases lastTarget? entry.id back <;> rfl

/-- **A late enter row undoes no move.** Wherever the row stands among rows that only move its
client, the store is the one of the other rows, with the record of the row in the channel of the
last move. -/
theorem late_enter {clients : ClientStore} {entry : ClientEnterViewEntry}
    (hunknown : clients.find? entry.id = none) {rows : List Row} (hmoves : OnlyMoves entry.id rows)
    {front back : List Row} (hposition : rows = front ++ back) {messages : List Message}
    (hmessages : messages.flatMap Message.rows = front ++ .enter entry :: back) :
    messages.foldl apply clients = (rows.foldl applyRow clients).upsert
      { enteredClient none entry with
        channelId := (lastTarget? entry.id rows).getD entry.channelId } := by
  subst hposition
  obtain ⟨hfront, hback⟩ := OnlyMoves.append.1 hmoves
  refine Registry.ext fun c => ?_
  rw [foldl_apply, hmessages, Registry.find?_upsert, find?_foldl_applyRow]
  split_ifs with hc
  · obtain rfl : c = entry.id := hc
    rw [hunknown]
    exact foldl_applyOwn_enter hfront hback
  · have hne : (Row.enter entry).client ≠ c := Ne.symm hc
    rw [find?_foldl_applyRow, List.filter_append, List.filter_cons_of_neg (by simpa using hne),
      ← List.filter_append]

/-- A move of client 55 before its enter row, beside client 3. -/
theorem late_enter_movedFirst :
    let entry : ClientEnterViewEntry := { id := 55, channelId := 3, nickname := ascii "MovedFirst" }
    let other : ClientEnterViewEntry := { id := 3, channelId := 7, nickname := ascii "a" }
    let move : ClientMovedEntry := { id := 55, channelId := 7, reasonId := 0 }
    [Message.moved [move], .enterView [other, entry]].foldl apply ∅ =
      ([Row.move move, .enter other].foldl applyRow ∅).upsert
        { enteredClient none entry with channelId := 7 } := by
  intro entry other move
  have hmoves : OnlyMoves entry.id [.move move, .enter other] := by
    intro row hrow hclient
    rcases List.mem_cons.1 hrow with rfl | hrow
    · exact ⟨move, rfl, by decide⟩
    · rw [List.mem_singleton.1 hrow] at hclient
      exact absurd hclient (by decide)
  have hunknown : (∅ : ClientStore).find? entry.id = none := rfl
  exact late_enter hunknown hmoves (List.append_nil _).symm rfl

end TsCli.ClientStore
