import TsCli.Crypto.BootstrapCrypto
import TsCli.Session.TransportRules

/-!
# When sending a command is atomic

`SendCommand` queues and sends the packets of a command one after the other and undoes nothing when
it throws. So it leaves no trace exactly when it throws before the first packet is queued, or when
it does not throw at all, which `Fits` says in terms of the state before the call.
-/

namespace TsCli

namespace SessionTransport

open Exec PacketLimits ReliableCommandQueue CommandFragmenter

variable {env : Environment} {t t' : SessionTransport}

/-- The next `n` command packets can be queued, sent and numbered. -/
structure Fits (env : Environment) (t : SessionTransport) (n : ℕ) : Prop where
  room : ∀ i < n, t.reliableCommands.pending.size + i < maxPendingCommands
  ids : ∀ i < n, ¬ t.reliableCommands.contains (packetIdOf (t.outgoingKey .command + i)) = true
  sends : ∀ i < n, env.sendErrors (t.attempts + i) = none
  numbers : t.outgoingKey .command + n < 2 ^ 48

theorem packetId_outgoing (t : SessionTransport) (type : PacketType) :
    (t.sequences.outgoing type).packetId = packetIdOf (t.outgoingKey type) :=
  PacketSequence.packetId_eq _

theorem Fits.not_refuses {n : ℕ} (h : Fits env t (n + 1)) : ¬ t.Refuses := by
  rintro (hsize | hid)
  · have := h.room 0 n.succ_pos
    omega
  · rw [packetId_outgoing] at hid
    exact h.ids 0 n.succ_pos hid

/-- Near numbers have different ids. -/
theorem packetIdOf_ne {T d : ℕ} (h0 : 0 < d) (h : d < 65536) : packetIdOf (T + d) ≠ packetIdOf T := by
  rw [ne_eq, ← UInt16.toNat_inj, toNat_packetIdOf, toNat_packetIdOf]
  omega

/-- One packet more fits when the first one goes through and the others fit behind it. -/
theorem fits_succ_iff {n : ℕ} {command : PendingCommand} {h} (hrefused : ¬ t.Refuses)
    (hid : command.packetId = (t.sequences.outgoing .command).packetId)
    (hsend : env.sendErrors t.attempts = none) (hsent : Transmitted (t.enqueue command h) t' command.packet)
    (hkey : t'.outgoingKey .command = t.outgoingKey .command + 1) :
    Fits env t (n + 1) ↔ Fits env t' n := by
  have hsize : t'.reliableCommands.pending.size = t.reliableCommands.pending.size + 1 := by
    rw [hsent.reliableCommands]; exact size_insert h
  have hcontains : ∀ packetId, t'.reliableCommands.contains packetId = true ↔
      packetIdOf (t.outgoingKey .command) = packetId ∨
        t.reliableCommands.contains packetId = true := fun packetId => by
    rw [hsent.reliableCommands, ← packetId_outgoing, ← hid]
    exact contains_insert h packetId
  have hattempts : t'.attempts = t.attempts + 1 := hsent.attempts
  rw [Refuses, packetId_outgoing, not_or] at hrefused
  constructor
  · intro hfits
    refine ⟨fun i hi => ?_, fun i hi => ?_, fun i hi => ?_, ?_⟩
    · have := hfits.room (i + 1) (by omega)
      omega
    · rw [hcontains, hkey, add_assoc, add_comm 1 i]
      rintro (he | hc)
      · have := hfits.room i (by omega)
        have hmax : maxPendingCommands = 1024 := rfl
        exact packetIdOf_ne (by omega) (by omega) he.symm
      · exact hfits.ids (i + 1) (by omega) hc
    · rw [hattempts, add_assoc, add_comm 1 i]
      exact hfits.sends (i + 1) (by omega)
    · have := hfits.numbers
      omega
  · intro hfits
    refine ⟨fun i hi => ?_, fun i hi => ?_, fun i hi => ?_, ?_⟩
    · cases i with
      | zero => omega
      | succ i =>
        have := hfits.room i (by omega)
        omega
    · cases i with
      | zero => exact hrefused.2
      | succ i =>
        intro hc
        refine hfits.ids i (by omega) ((hcontains _).2 (.inr ?_))
        rwa [hkey, add_assoc, add_comm 1 i]
    · cases i with
      | zero => exact hsend
      | succ i =>
        have := hfits.sends i (by omega)
        rwa [hattempts, add_assoc, add_comm 1 i] at this
    · have := hfits.numbers
      omega

theorem outgoingKey_of_update {type : PacketType} {sequence : PacketSequence}
    (h : t'.sequences.outgoing = Function.update t.sequences.outgoing type sequence) :
    t'.outgoingKey type = sequence.key := by
  unfold outgoingKey
  rw [h, Function.update_self]

/-- The packets of a command go through exactly when they fit. -/
theorem wp_sendFragments_fits {data : Bytes} (hdata : data.length ≤ maxCommandSize) :
    ∀ (fragments : List CommandFragment) (lastPacketId : UInt16) (t : SessionTransport),
      wp (sendFragments env data lastPacketId fragments) (fun _ _ => Fits env t fragments.length)
        (fun _ _ => ¬ Fits env t fragments.length) t := by
  intro fragments
  induction fragments with
  | nil =>
    intro lastPacketId t
    exact ⟨nofun, nofun, nofun, PacketSequence.key_lt _⟩
  | cons fragment fragments ih =>
    intro lastPacketId t
    rw [sendFragments, wp_bind, List.length_cons]
    have hsize := length_fragment_le hdata fragment
    refine wp_sendCommandPacket hsize (fun hrefused _ hfits => hfits.not_refuses hrefused)
      fun hrefused command h hkey hid _ _ => wp_transmit (fun error herror hfits => ?_)
        (fun hsend hlt t' hsent hout => ?_) fun _ hend _ _ _ _ hfits => ?_
    · have hnone := hfits.sends 0 (by omega)
      exact absurd (hnone.symm.trans herror) nofun
    · have hkey' : t'.outgoingKey .command = t.outgoingKey .command + 1 :=
        (outgoingKey_of_update hout).trans (PacketSequence.key_ofKey hlt)
      rw [fits_succ_iff hrefused hid hsend hsent hkey']
      exact ih _ t'
    · have := hfits.numbers
      have hend' : ¬ t.outgoingKey .command + 1 < 2 ^ 48 := hend
      omega

/-- What is queued stays queued while a packet is sent, and the packet itself is queued. -/
theorem wp_sendCommandPacket_queued {data : Bytes} {flags : PacketFlags} {k : ℕ}
    (hdata : data.length ≤ 2147483647) (hk : t.reliableCommands.pending.find? k ≠ none ∨
      ¬ t.Refuses ∧ k = t.outgoingKey .command) :
    wp (sendCommandPacket env data flags)
      (fun _ t' => t'.reliableCommands.pending.find? k ≠ none)
      (fun _ t' => t'.reliableCommands.pending.find? k ≠ none) t := by
  refine wp_sendCommandPacket hdata (fun hrefused _ => ?_) fun hrefused command h hkey _ _ _ => ?_
  · exact hk.resolve_right fun hk => hk.1 hrefused
  · have hqueued : (t.enqueue command h).reliableCommands.pending.find? k ≠ none := by
      show (t.reliableCommands.insert command h).pending.find? k ≠ none
      rw [find?_insert]
      split_ifs with hkc
      · nofun
      · exact hk.resolve_right fun hk => hkc (hk.2.trans hkey.symm)
    exact wp_transmit (fun _ _ => hqueued)
      (fun _ _ _ hsent _ => by rw [hsent.reliableCommands]; exact hqueued)
      fun _ _ _ _ hsent _ => by rw [hsent.reliableCommands]; exact hqueued

/-- What is queued stays queued while the rest of a command is sent. -/
theorem wp_sendFragments_queued {data : Bytes} (hdata : data.length ≤ maxCommandSize) {k : ℕ} :
    ∀ (fragments : List CommandFragment) (lastPacketId : UInt16) (t : SessionTransport),
      t.reliableCommands.pending.find? k ≠ none →
      wp (sendFragments env data lastPacketId fragments)
        (fun _ t' => t'.reliableCommands.pending.find? k ≠ none)
        (fun _ t' => t'.reliableCommands.pending.find? k ≠ none) t := by
  intro fragments
  induction fragments with
  | nil => exact fun _ _ hk => hk
  | cons fragment fragments ih =>
    intro lastPacketId t hk
    rw [sendFragments, wp_bind]
    exact wp_mono (wp_sendCommandPacket_queued (length_fragment_le hdata fragment) (.inl hk))
      (fun _ t' hk' => ih _ t' hk') fun _ _ hk' => hk'

/-! ## The whole command -/

section Command

variable {data : Bytes}

/-- A command of at most the maximal size is at least one packet. -/
theorem exists_plan_cons (hdata : data.length ≤ maxCommandSize) :
    ∃ fragment fragments, plan data.length = .ok (fragment :: fragments) ∧
      fragments.length + 1 = packetCount data.length := by
  obtain ⟨fragments, hplan⟩ := exists_plan hdata
  have hcount := length_plan hplan
  cases fragments with
  | nil =>
    have hpos := packetCount_pos data.length
    rw [List.length_nil] at hcount
    omega
  | cons fragment fragments => exact ⟨fragment, fragments, hplan, hcount⟩

theorem sendCommand_of_plan {fragments : List CommandFragment}
    (h : plan data.length = .ok fragments) (t : SessionTransport) :
    sendCommand env data t = sendFragments env data 0 fragments t :=
  run_lift_bind_ok h _ t

theorem sendCommand_of_lt (h : maxCommandSize < data.length) :
    wp (sendCommand env data) (fun _ _ => False) (fun _ t' => t' = t) t := by
  unfold sendCommand wp
  rw [run_lift_bind_error (plan_of_lt h)]

/-- The command goes through exactly when its packets fit. -/
theorem wp_sendCommand_fits (hdata : data.length ≤ maxCommandSize) (t : SessionTransport) :
    wp (sendCommand env data) (fun _ _ => Fits env t (packetCount data.length))
      (fun _ _ => ¬ Fits env t (packetCount data.length)) t := by
  obtain ⟨fragment, fragments, hplan, hcount⟩ := exists_plan_cons hdata
  unfold wp
  rw [sendCommand_of_plan hplan, ← hcount]
  exact wp_sendFragments_fits hdata (fragment :: fragments) 0 t

/-- A queue that takes the first packet keeps it, however the command ends. -/
theorem wp_sendCommand_queued (hdata : data.length ≤ maxCommandSize) (hrefused : ¬ t.Refuses) :
    wp (sendCommand env data)
      (fun _ t' => t'.reliableCommands.pending.find? (t.outgoingKey .command) ≠ none)
      (fun _ t' => t'.reliableCommands.pending.find? (t.outgoingKey .command) ≠ none) t := by
  obtain ⟨fragment, fragments, hplan, -⟩ := exists_plan_cons hdata
  unfold wp
  rw [sendCommand_of_plan hplan]
  show wp (sendFragments env data 0 (fragment :: fragments)) _ _ t
  rw [sendFragments, wp_bind]
  exact wp_mono (wp_sendCommandPacket_queued (length_fragment_le hdata fragment)
    (.inr ⟨hrefused, rfl⟩)) (fun _ t' hk => wp_sendFragments_queued hdata fragments _ t' hk)
    fun _ _ hk => hk

/-- A queue that refuses the first packet stops the command there. -/
theorem wp_sendCommand_refused (hdata : data.length ≤ maxCommandSize) (hrefused : t.Refuses) :
    wp (sendCommand env data) (fun _ _ => True)
      (fun _ t' => t' = { t with ticks := t.ticks + 1 }) t := by
  obtain ⟨fragment, fragments, hplan, -⟩ := exists_plan_cons hdata
  unfold wp
  rw [sendCommand_of_plan hplan]
  show wp (sendFragments env data 0 (fragment :: fragments)) _ _ t
  rw [sendFragments, wp_bind]
  exact wp_sendCommandPacket (length_fragment_le hdata fragment) (fun _ _ => rfl)
    fun hnot => absurd hrefused hnot

/-- A queue that takes the next packet does not hold its number. -/
theorem find?_outgoingKey (hrefused : ¬ t.Refuses) :
    t.reliableCommands.pending.find? (t.outgoingKey .command) = none := by
  cases hfind : t.reliableCommands.pending.find? (t.outgoingKey .command) with
  | none => rfl
  | some command =>
    have hkey : command.key = t.outgoingKey .command := Registry.key_of_find? hfind
    exact absurd (.inr (contains_iff.2 ⟨_, command, hfind, (sequenceKey_inj.1 hkey).1⟩)) hrefused

end Command

/-- A call of `SendCommand` that throws changes neither the queue nor the sequence, and has put
nothing on the wire. -/
def AtomicOnFailure (env : Environment) (t : SessionTransport) (data : Bytes) : Prop :=
  ∀ failure t', sendCommand env data t = .error failure t' →
    t'.reliableCommands = t.reliableCommands ∧
      t'.sequences.outgoing .command = t.sequences.outgoing .command ∧ t'.sent = t.sent

/-- **Atomicity of `SendCommand`.** The call is atomic on failure exactly when the command is too
large, or the queue refuses its first packet, or all of its packets fit. -/
theorem atomicOnFailure_iff (env : Environment) (t : SessionTransport) (data : Bytes) :
    AtomicOnFailure env t data ↔
      maxCommandSize < data.length ∨ t.Refuses ∨ Fits env t (packetCount data.length) := by
  by_cases hlarge : maxCommandSize < data.length
  · refine iff_of_true (fun failure t' hrun => ?_) (.inl hlarge)
    rw [error_of_wp (sendCommand_of_lt hlarge) hrun]
    exact ⟨rfl, rfl, rfl⟩
  have hdata : data.length ≤ maxCommandSize := not_lt.1 hlarge
  constructor
  · intro hatomic
    by_contra hcontra
    rw [not_or, not_or] at hcontra
    obtain ⟨-, hrefused, hnot⟩ := hcontra
    cases hrun : sendCommand env data t with
    | ok packetId t' =>
      have hall := ok_of_wp (wp_sendCommand_fits hdata t) hrun
      exact hnot hall
    | error failure t' =>
      -- the first packet is in the queue now, and was not before
      refine error_of_wp (wp_sendCommand_queued hdata hrefused) hrun ?_
      rw [(hatomic failure t' hrun).1, find?_outgoingKey hrefused]
  · rintro (h | hrefused | hall) failure t' hrun
    · exact absurd h hlarge
    · rw [error_of_wp (wp_sendCommand_refused hdata hrefused) hrun]
      exact ⟨rfl, rfl, rfl⟩
    · have hnot := error_of_wp (wp_sendCommand_fits hdata t) hrun
      exact absurd hall hnot

/-- Every call of `Send` fails. -/
def deadEnvironment : Environment where
  crypto := recordedCrypto
  sendErrors _ := some "Network is unreachable"
  clock _ := 0

/-- A command whose only packet cannot be sent stays in the queue. -/
theorem not_atomicOnFailure : ¬ ∀ (env : Environment) (operations : List Operation) (data : Bytes),
    AtomicOnFailure env (run env {} operations) data := by
  intro h
  have hsize : (final (sendCommand deadEnvironment [97]) {}).reliableCommands.pending.size = 1 := by
    decide +kernel
  have hthrows : (match sendCommand deadEnvironment [97] {} with
    | .ok _ _ => false
    | .error _ _ => true) = true := by decide +kernel
  cases hrun : sendCommand deadEnvironment [97] {} with
  | ok packetId t' => simp [hrun] at hthrows
  | error failure t' =>
    rw [final_of_eq_error hrun, (h deadEnvironment [] [97] failure t' hrun).1] at hsize
    exact absurd hsize (by decide)

end SessionTransport

end TsCli
