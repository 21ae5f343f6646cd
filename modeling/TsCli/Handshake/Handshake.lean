import TsCli.Command.Parser
import TsCli.Handshake.BootstrapReassembly

/-!
# The end of the handshake

`Handshake::Run` reads the server's command from the transport of the handshake, answers it with
`clientek`, and waits for its acknowledgement. That acknowledgement has to be the very next
datagram (`bootstrap_survives_iff`): a fragment that the server sends again ends the handshake when
it arrives first.
-/

namespace TsCli

namespace BootstrapTransport

open Exec

/-- `SessionBootstrap`. -/
structure SessionBootstrap (M : Type) where
  material : M
  sequences : PacketSequenceState

/-- `"initivexpand"`. -/
def initIvExpand : Bytes := [0x69, 0x6e, 0x69, 0x74, 0x69, 0x76, 0x65, 0x78, 0x70, 0x61, 0x6e, 0x64]

variable (env : BootstrapEnvironment) {M : Type} (derive : Command → Except Failure (M × Bytes))

/-- `Handshake::Run` behind `ReceiveCommand`. `derive` stands for what it computes from the server's
command without the transport, from `InitIvExpand2::Parse` on: the session material, and the text of
`clientek`. -/
def answerCommand (plaintext : Bytes) : Bootstrap (SessionBootstrap M) := do
  let command ← Exec.lift (CommandParser.parse plaintext)
  Exec.lift (throwIf (command.name = initIvExpand) "Legacy initivexpand is not supported")
  let (material, clientEk) ← Exec.lift (derive command)
  let clientEkPacketId ← sendCommand env clientEk
  receiveAck env clientEkPacketId
  let t ← get
  return { material, sequences := t.sequences }

/-- `Handshake::Run` from the construction of `bootstrap` on. -/
def bootstrap : Bootstrap (SessionBootstrap M) := do
  let plaintext ← receiveCommand env
  answerCommand env derive plaintext

variable {env} {derive}

/-! ## Programs that leave the inbox alone -/

/-- A run that sends, and would do the same whatever is still to be received. -/
structure Sends {α : Type} (m : Bootstrap α) (t : BootstrapTransport) (a : α)
    (u : BootstrapTransport) : Prop where
  inbox : u.inbox = t.inbox
  incoming : u.sequences.incoming = t.sequences.incoming
  run : ∀ inbox, m { t with inbox } = .ok a { u with inbox }

theorem sends_sendEncrypted {type : PacketType} {flags : PacketFlags} {data : Bytes}
    {t u : BootstrapTransport} (h : sendEncrypted env type flags data t = .ok () u) :
    Sends (sendEncrypted env type flags data) t () u := by
  unfold sendEncrypted at h
  rw [run_get_bind, run_lift_bind_eq_ok_iff] at h
  obtain ⟨datagram, hdatagram, h⟩ := h
  obtain ⟨_, s, hsend, hadvance⟩ := (run_bind_eq_ok_iff _).1 h
  have hnone : env.sendErrors t.attempts = none := by
    unfold send at hsend
    rw [run_get_bind] at hsend
    cases herror : env.sendErrors t.attempts with
    | none => rfl
    | some error => rw [herror] at hsend; cases hsend
  rw [send_of_none hnone] at hsend
  cases hsend
  unfold onOutgoing zoom at hadvance
  dsimp only at hadvance
  cases hrun : PacketSequence.advance (t.sequences.outgoing type) with
  | error failure sequence => rw [hrun] at hadvance; cases hadvance
  | ok _ sequence =>
    rw [hrun] at hadvance
    cases hadvance
    refine ⟨rfl, rfl, fun inbox => ?_⟩
    have hsend' := send_of_none (t := { t with inbox }) hnone datagram
    unfold sendEncrypted
    rw [run_get_bind, run_lift_bind_ok (a := datagram) hdatagram, run_bind_of_ok _ hsend']
    unfold onOutgoing zoom
    dsimp only
    rw [hrun]

theorem sends_sendAck {packet : ServerPacket} {t u : BootstrapTransport}
    (h : sendAck env packet t = .ok () u) : Sends (sendAck env packet) t () u :=
  sends_sendEncrypted h

theorem sends_sendCommand {data : Bytes} {packetId : UInt16} {t u : BootstrapTransport}
    (h : sendCommand env data t = .ok packetId u) : Sends (sendCommand env data) t packetId u := by
  unfold sendCommand at h
  rw [run_lift_bind_eq_ok_iff] at h
  obtain ⟨_, hsize, h⟩ := h
  rw [run_get_bind] at h
  obtain ⟨_, s, hsend, hpure⟩ := (run_bind_eq_ok_iff _).1 h
  cases hpure
  have hsends := sends_sendEncrypted hsend
  refine ⟨hsends.inbox, hsends.incoming, fun inbox => ?_⟩
  unfold sendCommand
  rw [run_lift_bind_ok hsize, run_get_bind, run_bind_of_ok _ (hsends.run inbox)]
  rfl

/-! ## What the first command consumes -/

/-- A datagram with an authentic command packet. -/
def IsCommand (openSsl : OpenSsl) (datagram : Bytes) : Prop :=
  ∃ packet plaintext, ServerPacket.parse datagram = .ok packet ∧ packet.header.type = .command ∧
    BootstrapCrypto.decrypt openSsl packet = .ok plaintext

theorem receive_eq_ok {t u : BootstrapTransport} {datagram : Bytes}
    (h : receive t = .ok datagram u) : t.inbox = datagram :: u.inbox ∧ u = { t with inbox := u.inbox } := by
  unfold receive at h
  rw [run_get_bind] at h
  cases hinbox : t.inbox with
  | nil => rw [hinbox] at h; cases h
  | cons first inbox =>
    rw [hinbox] at h
    cases h
    exact ⟨rfl, rfl⟩

/-- A pass that returned took one datagram, a command, and depends on no other one. -/
theorem receivePass_eq_ok {fragments : Fragments} {totalSize : ℕ} {reassembly : Reassembly}
    {t u : BootstrapTransport} (h : receivePass env fragments totalSize t = .ok reassembly u) :
    ∃ datagram, t.inbox = datagram :: u.inbox ∧ IsCommand env.openSsl datagram ∧
      u.sequences.incoming = t.sequences.incoming ∧
      ∀ inbox, receivePass env fragments totalSize { t with inbox := datagram :: inbox } =
        .ok reassembly { u with inbox } := by
  unfold receivePass receivePacket at h
  rw [bind_assoc] at h
  obtain ⟨datagram, s, hreceive, h⟩ := (run_bind_eq_ok_iff _).1 h
  obtain ⟨hinbox, hs⟩ := receive_eq_ok hreceive
  obtain ⟨packet, hparse, h⟩ := run_lift_bind_eq_ok_iff.1 h
  obtain ⟨_, htype, h⟩ := run_lift_bind_eq_ok_iff.1 h
  obtain ⟨plaintext, hdecrypt, h⟩ := run_lift_bind_eq_ok_iff.1 h
  obtain ⟨_, u', hack, hadd⟩ := (run_bind_eq_ok_iff _).1 h
  have hsends := sends_sendAck hack
  have hcommand : packet.header.type = .command := by simpa using not_of_throwIf htype
  obtain ⟨hreassembly, rfl⟩ : addFragment fragments totalSize packet plaintext = .ok reassembly ∧
      u' = u := by
    cases hresult : addFragment fragments totalSize packet plaintext with
    | error failure => rw [hresult] at hadd; cases hadd
    | ok result => rw [hresult] at hadd; cases hadd; exact ⟨rfl, rfl⟩
  refine ⟨datagram, by rw [hsends.inbox]; exact hinbox,
    ⟨packet, plaintext, hparse, hcommand, hdecrypt⟩, by rw [hsends.incoming, hs], fun inbox => ?_⟩
  have hreceive' : receive { t with inbox := datagram :: inbox } = .ok datagram { s with inbox } := by
    rw [hs]; rfl
  unfold receivePass receivePacket
  rw [bind_assoc, run_bind_of_ok _ hreceive', run_lift_bind_ok hparse, run_lift_bind_ok htype,
    run_lift_bind_ok hdecrypt, run_bind_of_ok _ (hsends.run inbox), hreassembly]
  rfl

theorem continueBehind_eq_ok {lastId : ℕ} {t u : BootstrapTransport}
    (h : continueBehind lastId t = .ok () u) :
    u.inbox = t.inbox ∧ u.sequences.incoming .ack = t.sequences.incoming .ack ∧
      ∀ inbox, continueBehind lastId { t with inbox } = .ok () { u with inbox } := by
  unfold continueBehind onIncoming zoom at h
  dsimp only at h
  split at h
  · rename_i sequence hrun
    cases h
    have hne : PacketType.ack ≠ .command := by decide
    refine ⟨rfl, Function.update_of_ne hne sequence t.sequences.incoming, fun inbox => ?_⟩
    unfold continueBehind onIncoming zoom
    dsimp only
    rw [hrun]
  · cases h

/-- A run of the loop that returned took some datagrams, all of them commands, and depends on no
other ones. -/
theorem receiveLoop_eq_ok {fuel : ℕ} {fragments : Fragments} {totalSize : ℕ}
    {t u : BootstrapTransport} {data : Bytes}
    (h : receiveLoop env fuel fragments totalSize t = .ok data u) :
    ∃ received, t.inbox = received ++ u.inbox ∧
      (∀ datagram ∈ received, IsCommand env.openSsl datagram) ∧
      u.sequences.incoming .ack = t.sequences.incoming .ack ∧
      ∀ inbox fuel', received.length ≤ fuel' →
        receiveLoop env fuel' fragments totalSize { t with inbox := received ++ inbox } =
          .ok data { u with inbox } := by
  induction fuel generalizing fragments totalSize t with
  | zero => cases h
  | succ fuel ih =>
    unfold receiveLoop at h
    obtain ⟨reassembly, s, hpass, h⟩ := (run_bind_eq_ok_iff _).1 h
    obtain ⟨datagram, hinbox, hcommand, hincoming, hagain⟩ := receivePass_eq_ok hpass
    cases reassembly with
    | waiting fragments' totalSize' =>
      obtain ⟨received, hreceived, hcommands, hack, hloop⟩ := ih h
      refine ⟨datagram :: received, by rw [hinbox, hreceived]; rfl,
        List.forall_mem_cons.2 ⟨hcommand, hcommands⟩, by rw [hack, hincoming], ?_⟩
      intro inbox fuel' hfuel
      obtain ⟨fuel', rfl⟩ := Nat.exists_eq_succ_of_ne_zero (Nat.ne_of_gt (Nat.lt_of_lt_of_le
        (Nat.succ_pos _) hfuel))
      rw [List.cons_append, receiveLoop_of_waiting (hagain _)]
      exact hloop inbox fuel' (Nat.le_of_succ_le_succ hfuel)
    | command lastId result =>
      obtain ⟨_, u', hbehind, hresult⟩ := (run_bind_eq_ok_iff _).1 h
      cases hresult
      obtain ⟨hbox, hack, hbehind⟩ := continueBehind_eq_ok hbehind
      refine ⟨[datagram], by rw [hinbox, hbox]; rfl, by simpa using hcommand,
        by rw [hack, hincoming], ?_⟩
      intro inbox fuel' hfuel
      obtain ⟨fuel', rfl⟩ := Nat.exists_eq_succ_of_ne_zero (Nat.ne_of_gt (Nat.lt_of_lt_of_le
        (Nat.succ_pos _) hfuel))
      exact receiveLoop_of_command (hagain _) (hbehind inbox) fuel'

/-- So does `ReceiveCommand`. -/
theorem receiveCommand_eq_ok {inbox : List Bytes} {t : BootstrapTransport} {plaintext : Bytes}
    (h : receiveCommand env { inbox } = .ok plaintext t) :
    ∃ received, inbox = received ++ t.inbox ∧
      (∀ datagram ∈ received, IsCommand env.openSsl datagram) ∧
      t.sequences.incoming .ack = { packetId := 0 } ∧
      ∀ inbox, receiveCommand env { inbox := received ++ inbox } = .ok plaintext { t with inbox } := by
  obtain ⟨received, hinbox, hcommands, hack, hloop⟩ := receiveLoop_eq_ok h
  refine ⟨received, hinbox, hcommands, hack, fun rest => ?_⟩
  exact hloop rest _ (by simp; omega)

/-! ## The acknowledgement of `clientek` -/

/-- The server's Ack for the packet, its first one. -/
def Acknowledges (openSsl : OpenSsl) (packetId : UInt16) (datagram : Bytes) : Prop :=
  ∃ packet, ServerPacket.parse datagram = .ok packet ∧ packet.header.type = .ack ∧
    packet.header.packetId = 0 ∧
    BootstrapCrypto.decrypt openSsl packet = .ok (BinaryWriter.writeU16 packetId)

theorem readPacketId_writeU16 (value : UInt16) :
    SessionTransport.readPacketId (BinaryWriter.writeU16 value) = .ok value := by
  unfold SessionTransport.readPacketId
  rw [BinaryReader.run_readU16 (by simp)]
  refine congrArg Except.ok (UInt16.toNat_inj.1 ?_)
  have hlow : value.toNat % 256 < 2 ^ 8 := Nat.mod_lt _ (by norm_num)
  have hvalue := value.toNat_lt
  have hmask (x : ℕ) : x &&& 255 = x % 256 := Nat.and_two_pow_sub_one_eq_mod x 8
  have hhigh : (value.toNat >>> 8 % 256) <<< 8 % 2 ^ 16 = (value.toNat / 256) <<< 8 := by
    rw [Nat.shiftRight_eq_div_pow, Nat.shiftLeft_eq, Nat.shiftLeft_eq]
    omega
  simp only [BinaryWriter.writeU16, List.getD_cons_zero, List.getD_cons_succ, UInt16.toNat_or,
    UInt16.toNat_shiftLeft, UInt8.toNat_toUInt16, UInt16.toNat_toUInt8, UInt16.toNat_and,
    UInt16.toNat_shiftRight, UInt16.reduceToNat, hmask, Nat.mod_mod, Nat.reduceMod]
  rw [hhigh, ← Nat.shiftLeft_add_eq_or_of_lt hlow, Nat.shiftLeft_eq]
  omega

theorem receivePacket_of_parse {t : BootstrapTransport} {datagram : Bytes} {inbox : List Bytes}
    {packet : ServerPacket} (hinbox : t.inbox = datagram :: inbox)
    (hparse : ServerPacket.parse datagram = .ok packet) :
    receivePacket t = .ok packet { t with inbox } := by
  have hreceive : receive t = .ok datagram { t with inbox } := by
    unfold receive
    rw [run_get_bind, hinbox]
    rfl
  unfold receivePacket
  rw [run_bind_of_ok _ hreceive, hparse]
  rfl

/-- The Ack that is waited for, when it is the next datagram. -/
theorem receiveAck_of_acknowledges {t : BootstrapTransport} {packetId : UInt16} {ack : Bytes}
    {inbox : List Bytes} (hinbox : t.inbox = ack :: inbox)
    (hack : Acknowledges env.openSsl packetId ack)
    (hsequence : t.sequences.incoming .ack = { packetId := 0 }) :
    receiveAck env packetId t = .ok () { t with
      inbox
      sequences := t.sequences.setIncoming .ack { packetId := 1 } } := by
  obtain ⟨packet, hparse, htype, hid, hdecrypt⟩ := hack
  unfold receiveAck acceptAck
  rw [run_bind_of_ok _ (receivePacket_of_parse hinbox hparse),
    run_lift_bind_ok (throwIf_of_not _ (by simpa using htype)), run_get_bind, hsequence,
    run_lift_bind_ok (throwIf_of_not _ (by simpa using hid)), run_lift_bind_ok hdecrypt,
    run_lift_bind_ok (throwIf_of_not _ (by simp)), run_lift_bind_ok (readPacketId_writeU16 packetId),
    run_lift_bind_ok (throwIf_of_not _ (by simp))]
  unfold onIncoming zoom
  dsimp only
  rw [hsequence]
  rfl

/-- Anything but an Ack ends the handshake. -/
theorem receiveAck_of_isCommand {t : BootstrapTransport} {packetId : UInt16} {datagram : Bytes}
    {inbox : List Bytes} (hinbox : t.inbox = datagram :: inbox)
    (hcommand : IsCommand env.openSsl datagram) :
    receiveAck env packetId t =
      .error (.runtimeError "Expected bootstrap Ack packet") { t with inbox } := by
  obtain ⟨packet, -, hparse, htype, -⟩ := hcommand
  unfold receiveAck acceptAck
  rw [run_bind_of_ok _ (receivePacket_of_parse hinbox hparse),
    run_lift_bind_error (throwIf_of_pos _ (by simp [htype]))]

/-! ## Fragments that arrive again -/

/-- The same material, and the same sequences but for the acknowledgements that were sent. -/
def SameUpToAcks (b b' : SessionBootstrap M) : Prop :=
  b.material = b'.material ∧ b.sequences.incoming = b'.sequences.incoming ∧
    ∀ type, type ≠ .ack → b.sequences.outgoing type = b'.sequences.outgoing type

/-- With the Ack of `clientek` next in the inbox, `Handshake::Run` returns. -/
theorem answerCommand_of_acknowledges {t u : BootstrapTransport} {plaintext clientEk ack : Bytes}
    {command : Command} {material : M} {packetId : UInt16}
    (hsequence : t.sequences.incoming .ack = { packetId := 0 })
    (hparse : CommandParser.parse plaintext = .ok command) (hname : command.name ≠ initIvExpand)
    (hderive : derive command = .ok (material, clientEk))
    (hsend : sendCommand env clientEk t = .ok packetId u)
    (hack : Acknowledges env.openSsl packetId ack) (inbox : List Bytes) :
    ∃ v, answerCommand env derive plaintext { t with inbox := ack :: inbox } =
      .ok ⟨material, u.sequences.setIncoming .ack { packetId := 1 }⟩ v := by
  have hsends := sends_sendCommand hsend
  have hnext : u.sequences.incoming .ack = { packetId := 0 } := by rw [hsends.incoming, hsequence]
  have hreceive := receiveAck_of_acknowledges (t := { u with inbox := ack :: inbox }) rfl hack hnext
  refine ⟨{ u with inbox, sequences := u.sequences.setIncoming .ack { packetId := 1 } }, ?_⟩
  unfold answerCommand
  rw [run_lift_bind_ok hparse, run_lift_bind_ok (throwIf_of_not _ hname), run_lift_bind_ok hderive]
  dsimp only
  rw [run_bind_of_ok _ (hsends.run _), run_bind_of_ok _ hreceive]
  rfl

/-- With a command in front of it, it throws. -/
theorem answerCommand_of_isCommand {t u : BootstrapTransport} {plaintext clientEk datagram : Bytes}
    {command : Command} {material : M} {packetId : UInt16}
    (hparse : CommandParser.parse plaintext = .ok command) (hname : command.name ≠ initIvExpand)
    (hderive : derive command = .ok (material, clientEk))
    (hsend : sendCommand env clientEk t = .ok packetId u)
    (hcommand : IsCommand env.openSsl datagram) (inbox : List Bytes) :
    ∃ v, answerCommand env derive plaintext { t with inbox := datagram :: inbox } =
      .error (.runtimeError "Expected bootstrap Ack packet") v := by
  have hsends := sends_sendCommand hsend
  have hreceive : receiveAck env packetId { u with inbox := datagram :: inbox } = _ :=
    receiveAck_of_isCommand rfl hcommand
  refine ⟨{ u with inbox }, ?_⟩
  unfold answerCommand
  rw [run_lift_bind_ok hparse, run_lift_bind_ok (throwIf_of_not _ hname), run_lift_bind_ok hderive]
  dsimp only
  rw [run_bind_of_ok _ (hsends.run _), run_bind_of_error _ hreceive]

/-- The handshake survives the fragments that arrive again if and only if none of them arrives
before the Ack of `clientek`. -/
theorem bootstrap_survives_iff {received before after : List Bytes} {ack plaintext clientEk : Bytes}
    {t u : BootstrapTransport} {command : Command} {material : M} {packetId : UInt16}
    (hreceive : receiveCommand env { inbox := received ++ (before ++ ack :: after) } =
      .ok plaintext t)
    (hreceived : t.inbox = before ++ ack :: after)
    (hparse : CommandParser.parse plaintext = .ok command) (hname : command.name ≠ initIvExpand)
    (hderive : derive command = .ok (material, clientEk))
    (hsend : sendCommand env clientEk t = .ok packetId u)
    (hack : Acknowledges env.openSsl packetId ack)
    (hduplicates : ∀ datagram ∈ before ++ after, datagram ∈ received) :
    (∃ b v b' v', bootstrap env derive { inbox := received ++ (before ++ ack :: after) } = .ok b v ∧
      bootstrap env derive { inbox := received ++ [ack] } = .ok b' v' ∧ SameUpToAcks b b') ↔
    before = [] := by
  obtain ⟨consumed, hinbox, hcommands, hsequence, hagain⟩ := receiveCommand_eq_ok hreceive
  obtain rfl : consumed = received := by
    rw [hreceived] at hinbox
    exact (List.append_cancel_right hinbox).symm
  constructor
  · rintro ⟨b, v, b', v', hrun, -, -⟩
    cases before with
    | nil => rfl
    | cons datagram before =>
      have hmem : datagram ∈ consumed := hduplicates datagram (by simp)
      obtain ⟨w, hw⟩ := answerCommand_of_isCommand hparse hname hderive hsend
        (hcommands datagram hmem) (before ++ ack :: after)
      unfold bootstrap at hrun
      rw [run_bind_of_ok _ (hagain _)] at hrun
      rw [List.cons_append] at hrun
      rw [hw] at hrun
      cases hrun
  · rintro rfl
    obtain ⟨v, hv⟩ := answerCommand_of_acknowledges hsequence hparse hname hderive hsend hack after
    obtain ⟨v', hv'⟩ := answerCommand_of_acknowledges hsequence hparse hname hderive hsend hack []
    refine ⟨⟨material, u.sequences.setIncoming .ack { packetId := 1 }⟩, v,
      ⟨material, u.sequences.setIncoming .ack { packetId := 1 }⟩, v', ?_, ?_, rfl, rfl,
      fun _ _ => rfl⟩
    · unfold bootstrap
      rw [run_bind_of_ok _ (hagain _)]
      exact hv
    · unfold bootstrap
      rw [run_bind_of_ok _ (hagain _)]
      exact hv'

/-! ## Recorded datagrams -/

/-- The server's Ack for packet 1. -/
def recordedAck : Bytes := [185, 232, 107, 108, 184, 81, 135, 54, 0, 0, 6, 254, 25]

theorem acknowledges_recordedAck : Acknowledges .recorded 1 recordedAck :=
  ⟨_, ServerPacket.parse_eq (by decide), by decide +kernel, by decide +kernel, by decide +kernel⟩

/-- A derivation that answers every command with the same text. -/
def answerA : Command → Except Failure (Unit × Bytes) := fun _ => .ok ((), [97])

/-- A fragment that arrives again after the Ack does no harm. -/
theorem bootstrap_survives_recorded : ∃ b v b' v',
    bootstrap recordedBootstrap answerA
      { inbox := [recordedLast, recordedFirst] ++ ([] ++ recordedAck :: [recordedLast]) } = .ok b v ∧
    bootstrap recordedBootstrap answerA
      { inbox := [recordedLast, recordedFirst] ++ [recordedAck] } = .ok b' v' ∧
    SameUpToAcks b b' := by
  have hreceive : receiveCommand recordedBootstrap
      { inbox := [recordedLast, recordedFirst] ++ ([] ++ recordedAck :: [recordedLast]) } =
      .ok [97, 98] _ := eq_ok_of_returned? (by decide +kernel)
  have hparse : CommandParser.parse [97, 98] = .ok { name := [97, 98] } := by decide
  have hsend : sendCommand recordedBootstrap [97] (final (receiveCommand recordedBootstrap)
      { inbox := [recordedLast, recordedFirst] ++ ([] ++ recordedAck :: [recordedLast]) }) =
      .ok 1 _ := eq_ok_of_returned? (by decide +kernel)
  exact (bootstrap_survives_iff hreceive (by decide +kernel) hparse (by decide) rfl hsend
    acknowledges_recordedAck (by decide)).2 rfl

/-- A fragment that arrives again before it ends the handshake. -/
theorem bootstrap_ends_recorded :
    (∃ b v, bootstrap recordedBootstrap answerA
      { inbox := [recordedLast, recordedFirst] ++ [recordedAck] } = .ok b v) ∧
    ∃ v, bootstrap recordedBootstrap answerA
      { inbox := [recordedLast, recordedFirst] ++ ([recordedLast] ++ recordedAck :: []) } =
        .error (.runtimeError "Expected bootstrap Ack packet") v := by
  constructor
  · have hreturned : (returned? (bootstrap recordedBootstrap answerA)
        { inbox := [recordedLast, recordedFirst] ++ [recordedAck] }).isSome := by decide +kernel
    obtain ⟨b, hb⟩ := Option.isSome_iff_exists.1 hreturned
    exact ⟨b, _, eq_ok_of_returned? hb⟩
  · exact ⟨_, eq_error_of_thrown? (by decide +kernel)⟩

end BootstrapTransport

end TsCli
