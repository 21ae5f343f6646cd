import TsCli.Handshake.BootstrapTransport

/-!
# Reassembling the first command

A command of `n` packets carries the ids from 0 on. In any order, with any number of duplicates,
`ReceiveCommand` acknowledges every datagram, waits while an id is missing, and returns the
plaintexts in the order of their ids as soon as none is.
-/

namespace TsCli

namespace BootstrapTransport

variable {env : BootstrapEnvironment} {plaintexts : List Bytes}

/-! ## The packets of a command -/

/-- Only the first and the last packet of a command of several packets are flagged. -/
def Flagged (plaintexts : List Bytes) (i : ℕ) : Bool :=
  2 ≤ plaintexts.length && (i = 0 || i + 1 = plaintexts.length)

/-- An authentic packet `i` of the command with these plaintexts. -/
structure IsFragment (openSsl : OpenSsl) (plaintexts : List Bytes) (i : ℕ)
    (packet : ServerPacket) : Prop where
  type : packet.header.type = .command
  packetId : packet.header.packetId.toNat = i
  decrypt : ∃ plaintext, plaintexts[i]? = some plaintext ∧
    BootstrapCrypto.decrypt openSsl packet = .ok plaintext
  compressed : hasFlag packet.header.flags .compressed = false
  fragmented : hasFlag packet.header.flags .fragmented = Flagged plaintexts i

/-- A datagram with such a packet. -/
def Carries (openSsl : OpenSsl) (plaintexts : List Bytes) (i : ℕ) (datagram : Bytes) : Prop :=
  ∃ packet, ServerPacket.parse datagram = .ok packet ∧ IsFragment openSsl plaintexts i packet

/-! ## The fragments -/

/-- The fragments with the ids in `seen` are stored. -/
structure Holds (plaintexts : List Bytes) (seen : Finset ℕ) (fragments : Fragments)
    (totalSize : ℕ) : Prop where
  contains : ∀ i, fragments.contains i = true ↔ i ∈ seen
  fragment : ∀ i fragment, fragments.find? i = some fragment →
    plaintexts[i]? = some fragment.data ∧ hasFlag fragment.flags .compressed = false ∧
      hasFlag fragment.flags .fragmented = Flagged plaintexts i
  total : totalSize = ∑ i ∈ seen, (plaintexts.getD i []).length

variable {seen : Finset ℕ} {fragments : Fragments} {totalSize i : ℕ}

theorem holds_empty : Holds plaintexts ∅ ∅ 0 where
  contains := by simp
  fragment := by simp
  total := by simp

theorem Holds.exists_of_mem (h : Holds plaintexts seen fragments totalSize) (hi : i ∈ seen) :
    ∃ fragment, fragments.find? i = some fragment :=
  Option.isSome_iff_exists.1 ((h.contains i).2 hi)

theorem Holds.find?_of_notMem (h : Holds plaintexts seen fragments totalSize) (hi : i ∉ seen) :
    fragments.find? i = none := by
  rw [← OrderedMap.contains_eq_false_iff, Bool.eq_false_iff]
  exact fun hc => hi ((h.contains i).1 hc)

theorem Holds.subset (h : Holds plaintexts seen fragments totalSize) :
    seen ⊆ Finset.range plaintexts.length := by
  intro i hi
  obtain ⟨fragment, hfragment⟩ := h.exists_of_mem hi
  obtain ⟨hlt, -⟩ := List.getElem?_eq_some_iff.1 (h.fragment i fragment hfragment).1
  exact Finset.mem_range.2 hlt

/-- A run with a gap has no end yet. -/
theorem lastFragment?_of_missing (h : Holds plaintexts seen fragments totalSize) {k : ℕ}
    (hk : k < plaintexts.length) (hmissing : k ∉ seen) (fuel j : ℕ) (hj : j ≤ k) (hpos : 0 < j) :
    lastFragment? fragments fuel j = none := by
  induction fuel generalizing j with
  | zero => rfl
  | succ fuel ih =>
    unfold lastFragment?
    cases hfind : fragments.find? j with
    | none => rfl
    | some fragment =>
      have hne : j ≠ k := fun he => by
        rw [he, h.find?_of_notMem hmissing] at hfind
        cases hfind
      have hflag : hasFlag fragment.flags .fragmented = false := by
        rw [(h.fragment j fragment hfind).2.2]
        simp only [Flagged, Bool.and_eq_false_iff, Bool.or_eq_false_iff, decide_eq_false_iff_not]
        omega
      dsimp only
      rw [hflag]
      exact ih (j + 1) (by omega) (by omega)

/-- A run without one ends with the last packet. -/
theorem lastFragment?_of_complete (h : Holds plaintexts seen fragments totalSize)
    (hn : 2 ≤ plaintexts.length) (hall : seen = Finset.range plaintexts.length) (fuel j : ℕ)
    (hj : j < plaintexts.length) (hfuel : plaintexts.length ≤ j + fuel) (hpos : 0 < j) :
    lastFragment? fragments fuel j = some (plaintexts.length - 1) := by
  induction fuel generalizing j with
  | zero => omega
  | succ fuel ih =>
    obtain ⟨fragment, hfind⟩ := h.exists_of_mem (i := j) (by rw [hall]; exact Finset.mem_range.2 hj)
    have hflag := (h.fragment j fragment hfind).2.2
    unfold lastFragment?
    rw [hfind]
    dsimp only
    rw [hflag]
    by_cases hlast : j + 1 = plaintexts.length
    · rw [show Flagged plaintexts j = true by simp [Flagged, hn, hlast]]
      exact congrArg some (by omega)
    · rw [show Flagged plaintexts j = false by simp [Flagged, hlast, hpos.ne']]
      exact ih (j + 1) (by omega) (by omega) (by omega)

theorem joinFragments_eq (h : Holds plaintexts seen fragments totalSize) (ids : List ℕ)
    (hids : ∀ i ∈ ids, i ∈ seen) :
    joinFragments fragments ids = .ok (ids.map fun i => plaintexts.getD i []).flatten := by
  induction ids with
  | nil => rfl
  | cons i ids ih =>
    obtain ⟨hi, hids⟩ := List.forall_mem_cons.1 hids
    obtain ⟨fragment, hfind⟩ := h.exists_of_mem hi
    unfold joinFragments
    rw [hfind]
    dsimp only
    rw [ih hids]
    simp [List.getD_eq_getElem?_getD, (h.fragment i fragment hfind).1, bind, Except.bind, pure,
      Except.pure]

/-- All fragments joined are the command. -/
theorem joinFragments_of_complete (h : Holds plaintexts seen fragments totalSize)
    (hall : seen = Finset.range plaintexts.length) :
    joinFragments fragments (List.range plaintexts.length) = .ok plaintexts.flatten := by
  rw [joinFragments_eq h _ fun i hi => by rw [hall]; simpa using hi]
  congr 2
  refine List.ext_getElem (by simp) fun i _ hi => ?_
  simp [List.getD_eq_getElem?_getD, hi]

/-! ## One more fragment -/

theorem completed?_of_missing (h : Holds plaintexts seen fragments totalSize) {k : ℕ}
    (hk : k < plaintexts.length) (hmissing : k ∉ seen) (packetId : ℕ) :
    completed? fragments packetId = .ok none := by
  unfold completed?
  cases hfirst : fragments.find? 0 with
  | none => rfl
  | some first =>
    obtain ⟨-, hcompressed, hfragmented⟩ := h.fragment 0 first hfirst
    have hpos : 0 < k := by
      refine Nat.pos_of_ne_zero fun h0 => ?_
      rw [h0] at hmissing
      rw [h.find?_of_notMem hmissing] at hfirst
      cases hfirst
    -- the id that is missing is not the only one, so the first packet is flagged
    have hflag : Flagged plaintexts 0 = true := by simp [Flagged]; omega
    dsimp only
    rw [hcompressed, throwIf_bind_of_not (by simp), hfragmented, hflag,
      lastFragment?_of_missing h hk hmissing _ 1 hpos Nat.one_pos]
    rfl

theorem completed?_of_complete (h : Holds plaintexts seen fragments totalSize)
    (hlimit : plaintexts.length ≤ maxFragments) (hall : seen = Finset.range plaintexts.length)
    (hi : i ∈ seen) :
    completed? fragments i = .ok (some (plaintexts.length - 1, plaintexts.flatten)) := by
  have hlt : i < plaintexts.length := Finset.mem_range.1 (h.subset hi)
  obtain ⟨first, hfirst⟩ := h.exists_of_mem (i := 0) (by rw [hall]; exact Finset.mem_range.2 (by omega))
  obtain ⟨hdata, hcompressed, hfragmented⟩ := h.fragment 0 first hfirst
  unfold completed?
  rw [hfirst]
  dsimp only
  rw [hcompressed, throwIf_bind_of_not (by simp), hfragmented]
  by_cases hn : 2 ≤ plaintexts.length
  · have hmax : maxFragments = 64 := rfl
    rw [show Flagged plaintexts 0 = true by simp [Flagged, hn],
      lastFragment?_of_complete h hn hall _ 1 (by omega) (by omega) Nat.one_pos]
    dsimp only
    rw [show plaintexts.length - 1 + 1 = plaintexts.length by omega,
      joinFragments_of_complete h hall]
    rfl
  · -- a single packet is the command
    obtain ⟨data, rfl⟩ := List.length_eq_one_iff.1 (show plaintexts.length = 1 by omega)
    rw [show Flagged [data] 0 = false by simp [Flagged]]
    obtain rfl : i = 0 := by simpa using hlt
    obtain rfl : data = first.data := by simpa using hdata
    simp [pure, Except.pure]

theorem Holds.insert (h : Holds plaintexts seen fragments totalSize) {plaintext : Bytes}
    {packet : ServerPacket} (hpacket : IsFragment env.openSsl plaintexts i packet)
    (hplaintext : plaintexts[i]? = some plaintext) (hi : i ∉ seen) :
    Holds plaintexts (insert i seen)
      (fragments.insert i { flags := packet.header.flags, data := plaintext })
      (totalSize + plaintext.length) where
  contains j := by
    unfold OrderedMap.contains
    rw [OrderedMap.find?_insert, Finset.mem_insert]
    split_ifs with hj
    · simp [hj]
    · simp only [hj, false_or]
      exact h.contains j
  fragment j fragment hfind := by
    rw [OrderedMap.find?_insert] at hfind
    split_ifs at hfind with hj
    · cases hfind
      rw [hj]
      exact ⟨hplaintext, hpacket.compressed, hpacket.fragmented⟩
    · exact h.fragment j fragment hfind
  total := by
    rw [Finset.sum_insert hi, ← h.total, List.getD_eq_getElem?_getD, hplaintext, Option.getD_some,
      Nat.add_comm]

/-- The limit on the number of fragments leaves room for another one of the command. -/
theorem Holds.size_lt (h : Holds plaintexts seen fragments totalSize)
    (hlimit : plaintexts.length ≤ maxFragments) (hlt : i < plaintexts.length) (hi : i ∉ seen) :
    fragments.size < maxFragments := by
  have hkeys : fragments.size ≤ seen.card :=
    OrderedMap.size_le_card fun j fragment hj =>
      (h.contains j).1 (OrderedMap.contains_iff.2 ⟨fragment, hj⟩)
  have hsub : seen ⊂ Finset.range plaintexts.length :=
    Finset.ssubset_iff_subset_ne.2 ⟨h.subset, fun he => hi (he ▸ Finset.mem_range.2 hlt)⟩
  have hcard := Finset.card_lt_card hsub
  rw [Finset.card_range] at hcard
  omega

/-- So does the limit on the size of the command. -/
theorem Holds.totalSize_le (h : Holds plaintexts seen fragments totalSize)
    (hsize : plaintexts.flatten.length ≤ maxCommandSize) : totalSize ≤ maxCommandSize := by
  have hsum : ∑ j ∈ Finset.range plaintexts.length, (plaintexts.getD j []).length =
      plaintexts.flatten.length := by
    rw [List.length_flatten, ← Fin.sum_univ_eq_sum_range (fun j => (plaintexts.getD j []).length),
      ← List.sum_ofFn]
    congr 1
    refine List.ext_getElem (by simp) fun j _ hj => ?_
    simp [List.getD_eq_getElem?_getD]
  rw [h.total]
  exact le_trans (Finset.sum_le_sum_of_subset h.subset) (hsum.le.trans hsize)

section AddFragment

variable (hlimit : plaintexts.length ≤ maxFragments)
  (hsize : plaintexts.flatten.length ≤ maxCommandSize)

include hlimit hsize

/-- While an id is missing, a packet of the command is stored and the next one awaited. -/
theorem addFragment_of_missing (h : Holds plaintexts seen fragments totalSize)
    {plaintext : Bytes} {packet : ServerPacket} (hpacket : IsFragment env.openSsl plaintexts i packet)
    (hplaintext : plaintexts[i]? = some plaintext) {k : ℕ} (hk : k < plaintexts.length)
    (hmissing : k ∉ insert i seen) :
    ∃ fragments' totalSize', Holds plaintexts (insert i seen) fragments' totalSize' ∧
      addFragment fragments totalSize packet plaintext = .ok (.waiting fragments' totalSize') := by
  unfold addFragment
  rw [hpacket.packetId]
  by_cases hi : i ∈ seen
  · refine ⟨fragments, totalSize, by rwa [Finset.insert_eq_of_mem hi], ?_⟩
    dsimp only
    rw [if_pos ((h.contains i).2 hi)]
    rfl
  · have h' := h.insert hpacket hplaintext hi
    have hlt := (List.getElem?_eq_some_iff.1 hplaintext).1
    have hroom := h'.totalSize_le hsize
    refine ⟨_, _, h', ?_⟩
    dsimp only
    rw [if_neg (mt (h.contains i).1 hi), throwIf_bind_of_not (not_le.2 (h.size_lt hlimit hlt hi)),
      throwIf_bind_of_not (by omega), completed?_of_missing h' hk hmissing]
    rfl

/-- The packet that completes the command ends the loop. -/
theorem addFragment_of_complete (h : Holds plaintexts seen fragments totalSize)
    {plaintext : Bytes} {packet : ServerPacket} (hpacket : IsFragment env.openSsl plaintexts i packet)
    (hplaintext : plaintexts[i]? = some plaintext) (hi : i ∉ seen)
    (hall : insert i seen = Finset.range plaintexts.length) :
    addFragment fragments totalSize packet plaintext =
      .ok (.command (plaintexts.length - 1) plaintexts.flatten) := by
  have h' := h.insert hpacket hplaintext hi
  have hlt := (List.getElem?_eq_some_iff.1 hplaintext).1
  have hroom := h'.totalSize_le hsize
  unfold addFragment
  rw [hpacket.packetId]
  dsimp only
  rw [if_neg (mt (h.contains i).1 hi), throwIf_bind_of_not (not_le.2 (h.size_lt hlimit hlt hi)),
    throwIf_bind_of_not (by omega),
    completed?_of_complete h' hlimit hall (Finset.mem_insert_self i seen)]
  rfl

end AddFragment

/-! ## The loop -/

/-- The datagrams of the acknowledgements of `order`, the first one with number `k`. -/
inductive Acks (env : BootstrapEnvironment) : ℕ → List ℕ → List Bytes → Prop
  | nil (k : ℕ) : Acks env k [] []
  | cons {k i : ℕ} {order : List ℕ} {ack : Bytes} {acks : List Bytes}
      (hack : encryptedDatagram env .ack .none (packetIdOf k)
        (BinaryWriter.writeU16 (UInt16.ofNat i)) = .ok ack)
      (hacks : Acks env (k + 1) order acks) : Acks env k (i :: order) (ack :: acks)

theorem Acks.length_eq {k : ℕ} {order : List ℕ} {acks : List Bytes} (h : Acks env k order acks) :
    acks.length = order.length := by
  induction h with
  | nil => rfl
  | cons _ _ ih => simp [ih]

theorem Acks.append {k : ℕ} {order order' : List ℕ} {acks acks' : List Bytes}
    (h : Acks env k order acks) (h' : Acks env (k + order.length) order' acks') :
    Acks env k (order ++ order') (acks ++ acks') := by
  induction h with
  | nil => exact h'
  | cons hack _ ih =>
    exact .cons hack (ih (by rwa [List.length_cons, ← Nat.add_assoc, Nat.add_right_comm] at h'))

/-- The transport after these acknowledgements, with `inbox` still to be received. -/
def afterAcks (acks inbox : List Bytes) : BootstrapTransport where
  attempts := acks.length
  sent := acks
  inbox := inbox
  sequences := bootstrapSequences.setOutgoing .ack (.ofKey acks.length)

theorem afterAcks_nil (inbox : List Bytes) : afterAcks [] inbox = { inbox } := by
  unfold afterAcks
  congr 1
  show PacketSequenceState.setOutgoing .ack ⟨0, 0⟩ bootstrapSequences = bootstrapSequences
  unfold PacketSequenceState.setOutgoing
  rw [show (⟨0, 0⟩ : PacketSequence) = bootstrapSequences.outgoing .ack from rfl,
    Function.update_eq_self]

theorem encryptedDatagram_eq_ok (env : BootstrapEnvironment) (type : PacketType)
    (flags : PacketFlags) (packetId : UInt16) {data : Bytes} (h : data.length ≤ 2147483647) :
    ∃ datagram, encryptedDatagram env type flags packetId data = .ok datagram := by
  unfold encryptedDatagram BootstrapCrypto.encrypt AesEax.encrypt AesEax.cryptCtr
  dsimp only
  rw [throwIf_bind_of_not (by omega)]
  exact ⟨_, rfl⟩

theorem send_of_none {t : BootstrapTransport} (h : env.sendErrors t.attempts = none)
    (datagram : Bytes) : send env datagram t =
      .ok () { t with attempts := t.attempts + 1, sent := t.sent ++ [datagram] } := by
  unfold send
  rw [Exec.run_get_bind, h]
  rfl

@[simp] theorem outgoing_afterAcks (acks inbox : List Bytes) :
    (afterAcks acks inbox).sequences.outgoing .ack = .ofKey acks.length := by
  show Function.update bootstrapSequences.outgoing .ack (.ofKey acks.length) .ack = _
  rw [Function.update_self]

/-- The acknowledgement goes on the wire, and its number is used up. -/
theorem sendAck_afterAcks {acks : List Bytes} (hsend : env.sendErrors acks.length = none)
    (hlt : acks.length + 1 < 2 ^ 48) (packet : ServerPacket) :
    ∃ ack, encryptedDatagram env .ack .none (packetIdOf acks.length)
        (BinaryWriter.writeU16 packet.header.packetId) = .ok ack ∧
      ∀ inbox, sendAck env packet (afterAcks acks inbox) = .ok () (afterAcks (acks ++ [ack]) inbox) := by
  obtain ⟨ack, hack⟩ := encryptedDatagram_eq_ok env .ack .none (packetIdOf acks.length)
    (show (BinaryWriter.writeU16 packet.header.packetId).length ≤ 2147483647 by simp)
  refine ⟨ack, hack, fun inbox => ?_⟩
  unfold sendAck sendEncrypted
  rw [Exec.run_get_bind, Exec.run_lift_bind_ok (a := ack) (by rwa [outgoing_afterAcks]),
    Exec.run_bind_of_ok _ (send_of_none hsend ack)]
  unfold onOutgoing Exec.zoom
  dsimp only
  rw [outgoing_afterAcks, PacketSequence.advance_of_lt (by rwa [PacketSequence.key_ofKey (by omega)]),
    PacketSequence.key_ofKey (by omega)]
  simp [afterAcks, PacketSequenceState.setOutgoing]

theorem receivePacket_afterAcks {datagram : Bytes} {packet : ServerPacket}
    (hparse : ServerPacket.parse datagram = .ok packet) (acks inbox : List Bytes) :
    receivePacket (afterAcks acks (datagram :: inbox)) = .ok packet (afterAcks acks inbox) := by
  have hreceive : receive (afterAcks acks (datagram :: inbox)) =
      .ok datagram (afterAcks acks inbox) := rfl
  unfold receivePacket
  rw [Exec.run_bind_of_ok _ hreceive, hparse]
  rfl

/-- The transport that hands its incoming commands over at packet `n`. -/
def handOver (n : ℕ) (t : BootstrapTransport) : BootstrapTransport :=
  { t with sequences := t.sequences.setIncoming .command { packetId := UInt16.ofNat n } }

theorem continueBehind_eq {t : BootstrapTransport} {lastId : ℕ} (hlast : lastId + 1 < 65536)
    (hgeneration : (t.sequences.incoming .command).generationId = 0) :
    continueBehind lastId t = .ok () (handOver (lastId + 1) t) := by
  have hkey : (PacketSequence.mk (UInt16.ofNat lastId) 0).key = lastId := by
    rw [PacketSequence.key_eq, UInt16.toNat_ofNat_of_lt' (show lastId < 2 ^ 16 by omega)]
    simp
  have hrun : (do
      modify fun sequence => { sequence with packetId := UInt16.ofNat lastId }
      PacketSequence.advance : EStateM Failure PacketSequence Unit)
        (t.sequences.incoming .command) = .ok () { packetId := UInt16.ofNat (lastId + 1) } := by
    show PacketSequence.advance ⟨UInt16.ofNat lastId, (t.sequences.incoming .command).generationId⟩ = _
    rw [hgeneration, PacketSequence.advance_of_lt (by rw [hkey]; omega), hkey]
    refine congrArg _ (PacketSequence.key_inj.1 ?_)
    rw [PacketSequence.key_ofKey (by omega), PacketSequence.key_eq,
      UInt16.toNat_ofNat_of_lt' (show lastId + 1 < 2 ^ 16 by omega)]
    simp
  unfold continueBehind onIncoming Exec.zoom
  dsimp only
  rw [hrun]
  rfl

/-- A pass of the loop over a packet of the command. -/
theorem receivePass_of_carries (acks : List Bytes) {datagram : Bytes}
    (h : Carries env.openSsl plaintexts i datagram) (hsend : env.sendErrors acks.length = none)
    (hlt : acks.length + 1 < 2 ^ 48) :
    ∃ packet plaintext ack, IsFragment env.openSsl plaintexts i packet ∧
      plaintexts[i]? = some plaintext ∧
      encryptedDatagram env .ack .none (packetIdOf acks.length)
        (BinaryWriter.writeU16 (UInt16.ofNat i)) = .ok ack ∧
      ∀ fragments totalSize inbox reassembly,
        addFragment fragments totalSize packet plaintext = .ok reassembly →
        receivePass env fragments totalSize (afterAcks acks (datagram :: inbox)) =
          .ok reassembly (afterAcks (acks ++ [ack]) inbox) := by
  obtain ⟨packet, hparse, hpacket⟩ := h
  obtain ⟨plaintext, hplaintext, hdecrypt⟩ := hpacket.decrypt
  obtain ⟨ack, hack, hsendAck⟩ := sendAck_afterAcks hsend hlt packet
  have hid : packet.header.packetId = UInt16.ofNat i := by
    rw [← hpacket.packetId, UInt16.ofNat_toNat]
  refine ⟨packet, plaintext, ack, hpacket, hplaintext, by rwa [hid] at hack, ?_⟩
  intro fragments totalSize inbox reassembly hadd
  unfold receivePass
  rw [Exec.run_bind_of_ok _ (receivePacket_afterAcks hparse acks inbox),
    Exec.run_lift_bind_ok (throwIf_of_not _ (by simpa using hpacket.type)),
    Exec.run_lift_bind_ok hdecrypt, Exec.run_bind_of_ok _ (hsendAck inbox), hadd]
  rfl

/-- A pass whose acknowledgement fails ends the loop. -/
theorem receiveLoop_of_sendAck_error {acks inbox : List Bytes} {datagram : Bytes}
    (h : Carries env.openSsl plaintexts i datagram) {failure : Failure}
    (hfail : ∀ packet, ∃ t, sendAck env packet (afterAcks acks inbox) = .error failure t)
    (fuel : ℕ) (fragments : Fragments) (totalSize : ℕ) :
    ∃ t, receiveLoop env (fuel + 1) fragments totalSize (afterAcks acks (datagram :: inbox)) =
      .error failure t := by
  obtain ⟨packet, hparse, hpacket⟩ := h
  obtain ⟨plaintext, -, hdecrypt⟩ := hpacket.decrypt
  obtain ⟨t, ht⟩ := hfail packet
  refine ⟨t, receiveLoop_of_error ?_ fuel⟩
  unfold receivePass
  rw [Exec.run_bind_of_ok _ (receivePacket_afterAcks hparse acks inbox),
    Exec.run_lift_bind_ok (throwIf_of_not _ (by simpa using hpacket.type)),
    Exec.run_lift_bind_ok hdecrypt, Exec.run_bind_of_error _ ht]

theorem sendAck_of_some {acks : List Bytes} {error : String}
    (hsend : env.sendErrors acks.length = some error) (packet : ServerPacket) (inbox : List Bytes) :
    ∃ t, sendAck env packet (afterAcks acks inbox) =
      .error (.runtimeError ("Failed to send UDP packet: " ++ error)) t := by
  obtain ⟨ack, hack⟩ := encryptedDatagram_eq_ok env .ack .none (packetIdOf acks.length)
    (show (BinaryWriter.writeU16 packet.header.packetId).length ≤ 2147483647 by simp)
  have herror : send env ack (afterAcks acks inbox) =
      .error (.runtimeError ("Failed to send UDP packet: " ++ error))
        { afterAcks acks inbox with attempts := acks.length + 1 } := by
    unfold send
    rw [Exec.run_get_bind, show env.sendErrors (afterAcks acks inbox).attempts = _ from hsend]
    rfl
  unfold sendAck sendEncrypted
  rw [Exec.run_get_bind, Exec.run_lift_bind_ok (a := ack) (by rwa [outgoing_afterAcks]),
    Exec.run_bind_of_error _ herror]
  exact ⟨_, rfl⟩

/-- The last number of the acknowledgements cannot be used up. -/
theorem sendAck_overflow {acks : List Bytes} (hlength : acks.length + 1 = 2 ^ 48)
    (hsend : env.sendErrors acks.length = none) (packet : ServerPacket) (inbox : List Bytes) :
    ∃ t, sendAck env packet (afterAcks acks inbox) =
      .error (.runtimeError "Packet generation overflow") t := by
  obtain ⟨ack, hack⟩ := encryptedDatagram_eq_ok env .ack .none (packetIdOf acks.length)
    (show (BinaryWriter.writeU16 packet.header.packetId).length ≤ 2147483647 by simp)
  unfold sendAck sendEncrypted
  rw [Exec.run_get_bind, Exec.run_lift_bind_ok (a := ack) (by rwa [outgoing_afterAcks]),
    Exec.run_bind_of_ok _ (send_of_none hsend ack)]
  unfold onOutgoing Exec.zoom
  dsimp only
  rw [outgoing_afterAcks,
    PacketSequence.advance_of_not_lt (by rw [PacketSequence.key_ofKey (by omega)]; omega)]
  exact ⟨_, rfl⟩

/-! ## All arrival orders -/

section Orders

variable (hlimit : plaintexts.length ≤ maxFragments)
  (hsize : plaintexts.flatten.length ≤ maxCommandSize) {order : List ℕ} {arrivals : List Bytes}

include hlimit hsize

/-- Arrivals that leave an id missing are stored and acknowledged. -/
theorem receiveLoop_of_missing (acks : List Bytes)
    (harrivals : List.Forall₂ (Carries env.openSsl plaintexts) order arrivals)
    {k : ℕ} (hk : k < plaintexts.length) (hseen : k ∉ seen) (horder : k ∉ order)
    (h : Holds plaintexts seen fragments totalSize)
    (hsend : ∀ j < order.length, env.sendErrors (acks.length + j) = none)
    (hlt : acks.length + order.length < 2 ^ 48) :
    ∃ fragments' totalSize' acks', Holds plaintexts (seen ∪ order.toFinset) fragments' totalSize' ∧
      Acks env acks.length order acks' ∧
      ∀ fuel inbox, receiveLoop env (order.length + fuel) fragments totalSize
          (afterAcks acks (arrivals ++ inbox)) =
        receiveLoop env fuel fragments' totalSize' (afterAcks (acks ++ acks') inbox) := by
  induction harrivals generalizing seen fragments totalSize acks with
  | nil => exact ⟨fragments, totalSize, [], by simpa using h, .nil _, by simp⟩
  | @cons i datagram order arrivals hcarries _ ih =>
    rw [List.length_cons] at hsend hlt
    obtain ⟨hki, horder⟩ := List.ne_and_not_mem_of_not_mem_cons horder
    obtain ⟨packet, plaintext, ack, hpacket, hplaintext, hack, hpass⟩ :=
      receivePass_of_carries acks hcarries (hsend 0 (by omega)) (by omega)
    have hmissing : k ∉ insert i seen := by simp [hki, hseen]
    obtain ⟨fragments₁, totalSize₁, h₁, hadd⟩ :=
      addFragment_of_missing hlimit hsize h hpacket hplaintext hk hmissing
    have hlength : (acks ++ [ack]).length = acks.length + 1 := by simp
    obtain ⟨fragments', totalSize', acks', h', hacks', hrun⟩ :=
      ih (acks ++ [ack]) hmissing horder h₁
        (fun j hj => by rw [hlength, Nat.add_assoc, Nat.add_comm 1]; exact hsend _ (by omega))
        (by omega)
    rw [hlength] at hacks'
    refine ⟨fragments', totalSize', ack :: acks', ?_, .cons hack hacks', fun fuel inbox => ?_⟩
    · rwa [List.toFinset_cons, Finset.union_insert, ← Finset.insert_union]
    · rw [List.length_cons, List.cons_append, Nat.add_right_comm,
        receiveLoop_of_waiting (hpass _ _ _ _ hadd), hrun, List.append_assoc, List.singleton_append]

/-- Every arrival is acknowledged; while an id is missing the loop waits for more, and the arrival
of the last one returns the command and hands over at the id behind it. -/
theorem receiveCommand_reassembles
    (harrivals : List.Forall₂ (Carries env.openSsl plaintexts) order arrivals)
    (hsend : ∀ j < order.length, env.sendErrors j = none) (hlt : order.length < 2 ^ 48) :
    ((¬ ∀ i < plaintexts.length, i ∈ order) → ∃ acks, Acks env 0 order acks ∧
      receiveCommand env { inbox := arrivals } =
        .error (.runtimeError "Receive timed out") (afterAcks acks [])) ∧
    ∀ front last back, order = front ++ last :: back →
      (¬ ∀ i < plaintexts.length, i ∈ front) → (∀ i < plaintexts.length, i ∈ front ++ [last]) →
      ∃ acks, Acks env 0 (front ++ [last]) acks ∧
        receiveCommand env { inbox := arrivals } = .ok plaintexts.flatten
          (handOver plaintexts.length (afterAcks acks (arrivals.drop (front.length + 1)))) := by
  have hstart : receiveCommand env { inbox := arrivals } =
      receiveLoop env (order.length + 1) ∅ 0 (afterAcks [] arrivals) := by
    rw [harrivals.length_eq, afterAcks_nil]
    rfl
  constructor
  · intro hincomplete
    push Not at hincomplete
    obtain ⟨k, hk, hmissing⟩ := hincomplete
    obtain ⟨fragments, totalSize, acks, -, hacks, hrun⟩ :=
      receiveLoop_of_missing hlimit hsize [] harrivals hk (by simp) hmissing holds_empty
        (by simpa using hsend) (by simpa using hlt)
    refine ⟨acks, hacks, ?_⟩
    have h := hrun 1 []
    rw [List.append_nil] at h
    rw [hstart, h]
    rfl
  · rintro front last back rfl hincomplete hcomplete
    push Not at hincomplete
    obtain ⟨k, hk, hmissing⟩ := hincomplete
    rw [List.length_append, List.length_cons] at hsend hlt
    have hfront := List.forall₂_take front.length harrivals
    have hback := List.forall₂_drop front.length harrivals
    rw [List.take_left] at hfront
    rw [List.drop_left] at hback
    obtain ⟨datagram, inbox, hlast, -, hdrop⟩ := List.forall₂_cons_left_iff.1 hback
    obtain ⟨fragments, totalSize, acks, h, hacks, hrun⟩ :=
      receiveLoop_of_missing hlimit hsize [] hfront hk (by simp) hmissing holds_empty
        (fun j hj => by simpa using hsend j (by omega)) (by simp; omega)
    rw [Finset.empty_union] at h
    rw [List.nil_append] at hrun
    have hlength := hacks.length_eq
    obtain ⟨packet, plaintext, ack, hpacket, hplaintext, hack, hpass⟩ :=
      receivePass_of_carries acks hlast (hsend _ (by omega)) (by omega)
    -- the id that was missing is the one that arrives last
    obtain rfl : k = last := by simpa [hmissing] using hcomplete k hk
    have hall : insert k front.toFinset = Finset.range plaintexts.length := by
      refine Finset.Subset.antisymm (Finset.insert_subset (Finset.mem_range.2 hk) h.subset) ?_
      intro i hi
      simpa [or_comm] using hcomplete i (Finset.mem_range.1 hi)
    have hadd := addFragment_of_complete hlimit hsize h hpacket hplaintext (by simpa using hmissing) hall
    refine ⟨acks ++ [ack], hacks.append (.cons (by simpa [hlength] using hack) (.nil _)), ?_⟩
    have hmax : maxFragments = 64 := rfl
    have hinbox : arrivals.drop (front.length + 1) = inbox := by
      rw [← List.drop_drop, hdrop, List.drop_one, List.tail_cons]
    rw [hstart, hinbox, ← List.take_append_drop front.length arrivals, hdrop, List.length_append,
      List.length_cons, Nat.add_assoc, hrun,
      receiveLoop_of_command (hpass _ _ _ _ hadd) (continueBehind_eq (by omega) rfl),
      Nat.sub_add_cancel (by omega)]

end Orders

/-! ## Recorded datagrams -/

/-- A handshake under the recorded crypto. -/
def recordedBootstrap : BootstrapEnvironment where
  openSsl := .recorded
  sendErrors _ := none

/-- The two packets of the server's command "ab". -/
def recordedFirst : Bytes := [73, 135, 164, 95, 184, 14, 247, 48, 0, 0, 18, 159]
def recordedLast : Bytes := [22, 126, 21, 25, 189, 207, 218, 158, 0, 1, 18, 156]

theorem carries_recordedFirst : Carries .recorded [[97], [98]] 0 recordedFirst :=
  ⟨_, ServerPacket.parse_eq (by decide), by decide +kernel, by decide +kernel,
    ⟨[97], rfl, by decide +kernel⟩, by decide +kernel, by decide +kernel⟩

theorem carries_recordedLast : Carries .recorded [[97], [98]] 1 recordedLast :=
  ⟨_, ServerPacket.parse_eq (by decide), by decide +kernel, by decide +kernel,
    ⟨[98], rfl, by decide +kernel⟩, by decide +kernel, by decide +kernel⟩

/-- The last packet, again, and the first one: three acknowledgements and the command. -/
theorem receiveCommand_reassembles_recorded : ∃ acks,
    Acks recordedBootstrap 0 [1, 1, 0] acks ∧
    receiveCommand recordedBootstrap { inbox := [recordedLast, recordedLast, recordedFirst] } =
      .ok [97, 98] (handOver 2 (afterAcks acks [])) := by
  have harrivals : List.Forall₂ (Carries recordedBootstrap.openSsl [[97], [98]]) [1, 1, 0]
      [recordedLast, recordedLast, recordedFirst] :=
    .cons carries_recordedLast (.cons carries_recordedLast (.cons carries_recordedFirst .nil))
  exact (receiveCommand_reassembles (by decide) (by decide) harrivals (fun _ _ => rfl)
    (by decide)).2 [1, 1] 0 [] rfl (by decide) (by decide)

theorem forall₂_replicate {datagram : Bytes} (h : Carries env.openSsl plaintexts i datagram)
    (m : ℕ) : List.Forall₂ (Carries env.openSsl plaintexts) (List.replicate m i)
      (List.replicate m datagram) := by
  induction m with
  | zero => exact .nil
  | succ m ih => exact .cons h ih

/-- When the last packet arrives `2 ^ 48` times before the first one, the numbers of the
acknowledgements run out. -/
theorem receiveCommand_of_overflow (hlimit : plaintexts.length ≤ maxFragments)
    (hsize : plaintexts.flatten.length ≤ maxCommandSize) {datagram : Bytes}
    (hdatagram : Carries env.openSsl plaintexts i datagram) {k : ℕ} (hk : k < plaintexts.length)
    (hne : k ≠ i) (hsend : ∀ j, env.sendErrors j = none) {m : ℕ} (hm : m + 1 = 2 ^ 48)
    (inbox : List Bytes) :
    ∃ t, receiveCommand env { inbox := List.replicate (m + 1) datagram ++ inbox } =
      .error (.runtimeError "Packet generation overflow") t := by
  have harrivals := forall₂_replicate hdatagram m
  obtain ⟨fragments, totalSize, acks, -, hacks, hrun⟩ :=
    receiveLoop_of_missing hlimit hsize [] harrivals hk (by simp) (by simp [hne]) holds_empty
      (fun j _ => hsend _) (by simp; omega)
  have hlength : acks.length = m := by simpa using hacks.length_eq
  have hfuel : (List.replicate (m + 1) datagram ++ inbox).length + 1 =
      (List.replicate m i).length + (inbox.length + 1 + 1) := by simp; omega
  have hinbox : List.replicate (m + 1) datagram ++ inbox =
      List.replicate m datagram ++ (datagram :: inbox) := by
    rw [List.replicate_succ', List.append_assoc, List.singleton_append]
  obtain ⟨t, ht⟩ := receiveLoop_of_sendAck_error hdatagram
    (fun packet => sendAck_overflow (by omega) (hsend acks.length) packet inbox) (inbox.length + 1)
    fragments totalSize
  refine ⟨t, ?_⟩
  show receiveLoop env _ ∅ 0 { inbox := _ } = _
  rw [hfuel, ← afterAcks_nil, hinbox, hrun]
  exact ht

/-- The recorded handshake behind a network that is down. -/
def noNetwork : BootstrapEnvironment where
  openSsl := .recorded
  sendErrors _ := some "Network is unreachable"

/-- When a send fails, or a packet is repeated too often, the command is not returned. -/
theorem receiveCommand_fails :
    List.Forall₂ (Carries noNetwork.openSsl [[97], [98]]) [0, 1] [recordedFirst, recordedLast] ∧
    (∃ t, receiveCommand noNetwork { inbox := [recordedFirst, recordedLast] } =
      .error (.runtimeError "Failed to send UDP packet: Network is unreachable") t) ∧
    List.Forall₂ (Carries recordedBootstrap.openSsl [[97], [98]]) (List.replicate (2 ^ 48) 1 ++ [0])
      (List.replicate (2 ^ 48) recordedLast ++ [recordedFirst]) ∧
    ∃ t, receiveCommand recordedBootstrap
        { inbox := List.replicate (2 ^ 48) recordedLast ++ [recordedFirst] } =
      .error (.runtimeError "Packet generation overflow") t := by
  refine ⟨.cons carries_recordedFirst (.cons carries_recordedLast .nil), ?_, ?_, ?_⟩
  · have hsend : noNetwork.sendErrors ([] : List Bytes).length = some "Network is unreachable" := rfl
    have hfail (packet : ServerPacket) := sendAck_of_some hsend packet [recordedLast]
    rw [show "Failed to send UDP packet: " ++ "Network is unreachable" =
      "Failed to send UDP packet: Network is unreachable" by decide] at hfail
    have hfirst : Carries noNetwork.openSsl [[97], [98]] 0 recordedFirst := carries_recordedFirst
    rw [← afterAcks_nil]
    exact receiveLoop_of_sendAck_error hfirst hfail 2 ∅ 0
  · exact List.rel_append (forall₂_replicate carries_recordedLast _)
      (.cons carries_recordedFirst .nil)
  · have hlast : Carries recordedBootstrap.openSsl [[97], [98]] 1 recordedLast :=
      carries_recordedLast
    have hoverflow := receiveCommand_of_overflow (by decide) (by decide) hlast
      (k := 0) (by decide) (by decide) (fun _ => rfl) (m := 2 ^ 48 - 1) (by norm_num) [recordedFirst]
    rwa [show 2 ^ 48 - 1 + 1 = 2 ^ 48 by norm_num] at hoverflow

end BootstrapTransport

end TsCli
