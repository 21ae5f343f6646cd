import TsCli.Lib.KeyFlags
import TsCli.Lib.Runs
import TsCli.Session.Session

/-!
# Subscriptions are stored twice

`m_SubscribedChannels` holds the subscribed ids, also of channels that the store does not know yet,
and each channel repeats its subscription in a flag. Every operation of the store keeps the two
copies equal, on a return and on a throw.
-/

namespace TsCli

namespace ChannelStore

open Exec Registry

/-- `ChannelStore::Clear`. -/
def clear (s : ChannelStore) : ChannelStore := { s with channels := ∅, subscribedChannels := ∅ }

/-- `ChannelStore::IsSubscribed`. -/
def isSubscribed (channelId : ℕ) (s : ChannelStore) : Bool := channelId ∈ s.subscribedChannels

/-- A call that may change the store. -/
inductive Operation
  | clear
  | applyList (entries : List ChannelCreatedEntry)
  | applyCreated (entry : ChannelCreatedEntry)
  | applyEdited (entry : ChannelEditedEntry)
  | applyMoved (entry : ChannelMovedEntry)
  | applySubscription (subscription : ChannelSubscriptionState)
  | setSubscribed (channelId : ℕ) (subscribed : Bool)
  | remove (channelId : ℕ)
  deriving DecidableEq

def Operation.perform : Operation → EStateM Failure ChannelStore Unit
  | .clear => modify ChannelStore.clear
  | .applyList entries => modify (ChannelStore.applyList entries)
  | .applyCreated entry => modify (ChannelStore.applyCreated entry)
  | .applyEdited entry => ChannelStore.applyEdited entry
  | .applyMoved entry => ChannelStore.applyMoved entry
  | .applySubscription subscription => modify (Session.subscribeChannels subscription)
  | .setSubscribed channelId subscribed => modify (ChannelStore.setSubscribed channelId subscribed)
  | .remove channelId => modify (ChannelStore.remove channelId)

/-- The store after a call, whether it returned or threw. -/
def step (s : ChannelStore) (operation : Operation) : ChannelStore := final operation.perform s

/-- The copies agree, and channel zero is no subscription. -/
structure Coherent (s : ChannelStore) : Prop where
  mirrors : Mirrors Channel.subscribed s.channels s.subscribedChannels
  zero : 0 ∉ s.subscribedChannels

variable {s : ChannelStore}

theorem coherent_empty : Coherent {} where
  mirrors := mirrors_empty
  zero := Finset.notMem_empty 0

/-! ## Operations -/

/-- Rewriting the place of the first channel of a kind touches no flag. -/
theorem Coherent.relink (h : s.Coherent) (except p o next : ℕ) :
    Coherent { s with channels := relink except p o next s.channels } where
  mirrors := h.mirrors.modifyFirst (id_setOrderAfter next) fun _ => rfl
  zero := h.zero

/-- Rewriting one channel but for its flag. -/
theorem Coherent.modify (h : s.Coherent) (id : ℕ) {f : Channel → Channel}
    (hf : ∀ channel, (f channel).id = channel.id)
    (hflag : ∀ channel, (f channel).subscribed = channel.subscribed) :
    Coherent { s with channels := s.channels.modify id f hf } where
  mirrors := h.mirrors.modify hf
    (fun channel hchannel => by rw [hflag]; exact h.mirrors id channel hchannel)
    fun _ _ => Iff.rfl
  zero := h.zero

/-- A channel that is stored takes its flag from the set. -/
theorem Coherent.upsert (h : s.Coherent) (channel : Channel) : Coherent (s.upsert channel) where
  mirrors := h.mirrors.upsert decide_eq_true_iff
  zero := h.zero

theorem Coherent.applyList (h : s.Coherent) (entries : List ChannelCreatedEntry) :
    Coherent (s.applyList entries) :=
  Runs.invariant (fun s entry (hs : s.Coherent) => hs.upsert (ChannelCreatedEntry.channel entry)) h
    entries

theorem Coherent.applyCreated (h : s.Coherent) (entry : ChannelCreatedEntry) :
    Coherent (s.applyCreated entry) := by
  unfold ChannelStore.applyCreated
  dsimp only
  split_ifs
  · exact h.upsert _
  · exact (h.relink ..).upsert _

theorem Coherent.setSubscribed (h : s.Coherent) (channelId : ℕ) (subscribed : Bool) :
    Coherent (s.setSubscribed channelId subscribed) := by
  unfold ChannelStore.setSubscribed
  by_cases hchannel : channelId = 0
  · rw [if_pos hchannel]
    exact h
  · rw [if_neg hchannel]
    refine ⟨h.mirrors.modify (f := fun channel => { channel with subscribed }) (fun _ => rfl)
      (fun _ _ => ?_) fun j hj => ?_, ?_⟩
    · cases subscribed <;> simp
    · cases subscribed <;> simp [hj]
    · cases subscribed <;> simp [h.zero, Ne.symm hchannel]

theorem Coherent.subscribeChannels (h : s.Coherent) (subscription : ChannelSubscriptionState) :
    Coherent (Session.subscribeChannels subscription s) :=
  Runs.invariant (fun s channelId (hs : s.Coherent) =>
    hs.setSubscribed channelId subscription.subscribed) h subscription.entries

theorem Coherent.remove (h : s.Coherent) (channelId : ℕ) : Coherent (s.remove channelId) := by
  have hzero : 0 ∉ s.subscribedChannels.erase channelId :=
    fun hmem => h.zero (Finset.mem_of_mem_erase hmem)
  unfold ChannelStore.remove
  split
  · next hunknown => exact ⟨h.mirrors.erase_key hunknown, hzero⟩
  · refine ⟨(h.mirrors.mapValues _ fun _ channel => ?_).erase channelId, hzero⟩
    split_ifs <;> rfl

/-- A move rewrites places, or throws before it has changed anything. -/
theorem Coherent.wp_move (h : s.Coherent) (channelId parentId orderAfterId : ℕ) :
    wp (move channelId parentId orderAfterId) (fun _ => Coherent) (fun _ => Coherent) s := by
  unfold move
  rw [wp_bind, wp_get]
  cases s.channels.find? channelId with
  | none => exact h
  | some moved =>
    dsimp only
    rw [wp_ite, wp_ite, wp_ite]
    refine ⟨fun _ => h, fun _ => ⟨fun _ => h, fun _ => ⟨fun _ => h, fun _ => ?_⟩⟩⟩
    have hclosed := h.relink channelId moved.parentId channelId moved.orderAfterId
    have hopened := hclosed.relink channelId parentId orderAfterId channelId
    exact hopened.modify channelId (id_setPlace parentId orderAfterId) fun _ => rfl

theorem Coherent.wp_applyEdited (h : s.Coherent) (entry : ChannelEditedEntry) :
    wp (ChannelStore.applyEdited entry) (fun _ => Coherent) (fun _ => Coherent) s := by
  have hedit : ∀ {s : ChannelStore}, s.Coherent → Coherent
      { s with channels := s.channels.modify entry.id (editFields entry) fun _ => rfl } :=
    fun hs => hs.modify (f := editFields entry) entry.id (fun _ => rfl) fun _ => rfl
  unfold ChannelStore.applyEdited
  rw [wp_bind, wp_get]
  cases s.channels.find? entry.id with
  | none => exact h
  | some channel =>
    dsimp only
    split_ifs
    · rw [wp_bind]
      exact wp_mono (h.wp_move ..) (fun _ _ => hedit) fun _ _ => id
    · exact hedit h

/-- **One call** keeps the copies equal. -/
theorem Coherent.step (h : s.Coherent) (operation : Operation) : Coherent (s.step operation) := by
  unfold ChannelStore.step
  cases operation with
  | clear => exact coherent_empty
  | applyList entries => exact h.applyList entries
  | applyCreated entry => exact h.applyCreated entry
  | applyEdited entry => exact wp_final.1 (h.wp_applyEdited entry)
  | applyMoved entry => exact wp_final.1 (h.wp_move ..)
  | applySubscription subscription => exact h.subscribeChannels subscription
  | setSubscribed channelId subscribed => exact h.setSubscribed channelId subscribed
  | remove channelId => exact h.remove channelId

/-- The store after some calls on an empty one. -/
def after (operations : List Operation) : ChannelStore := operations.foldl step {}

theorem coherent_after (operations : List Operation) : Coherent (after operations) :=
  Runs.invariant (fun _ operation h => h.step operation) coherent_empty operations

/-- **The store is coherent** after any calls, in any order. -/
theorem store_coherent (operations : List Operation) :
    (∀ id channel, (after operations).channels.map.find? id = some channel →
      channel.id = id ∧
        (channel.subscribed = true ↔ channel.id ∈ (after operations).subscribedChannels)) ∧
      (after operations).isSubscribed 0 = false := by
  have h := coherent_after operations
  refine ⟨fun id channel hchannel => ?_, decide_eq_false h.zero⟩
  have hid : channel.id = id := (after operations).channels.keyed id channel hchannel
  refine ⟨hid, ?_⟩
  rw [hid]
  exact h.mirrors id channel hchannel

end ChannelStore

end TsCli
