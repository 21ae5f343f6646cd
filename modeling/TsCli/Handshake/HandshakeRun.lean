import TsCli.Crypto.PuzzleSolver
import TsCli.Handshake.Handshake
import TsCli.Handshake.InitMessages
import TsCli.Handshake.KeyExchange

/-!
# The handshake

`Handshake::Run` asks for a cookie and for a puzzle, up to five times while the server resets the
exchange, answers the puzzle with its solution and the client's key, and goes on under the bootstrap
key: it reads the server's license, verifies its proof, derives the secrets of the session, and
sends `clientek`. A run that returns has taken all of these steps (`run_transcript`); and whatever
the server sends, the client's key leaves at most once, and only for a license whose proof holds
(`run_guarded`).
-/

namespace TsCli

open Exec BootstrapTransport

/-- What `Handshake` is given: its members, the clock, the random bytes, and the libraries. -/
structure HandshakeEnvironment (BN κ : Type) where
  bootstrap : BootstrapEnvironment
  numbers : BigNumbers BN
  p256 : P256Library κ
  sodium : Sodium
  decodeBlock : Bytes → Option Bytes
  identity : Identity
  /-- `Identity::Sign`. -/
  sign : Bytes → Except Failure Bytes
  clientVersion : UInt32
  serverIp : Bytes
  /-- `CurrentUnixTime`, in each attempt. -/
  unixTime : ℕ → UInt32
  /-- `RandomBytes`, in each attempt. -/
  randomBytes : ℕ → Vector UInt8 4
  /-- `RAND_bytes`. -/
  randBytes : Option (Vector UInt8 10)

namespace Handshake

variable {BN κ : Type} (env : HandshakeEnvironment BN κ)

/-- `Handshake::Run` between `CommandParser::Parse` and `SendCommand`. -/
def deriveAnswer (alpha : Vector UInt8 10) (command : Command) :
    Except Failure (SessionMaterial × Bytes) := do
  let expand ← InitIvExpand2.parse env.decodeBlock command
  let valid ← P256.verify env.p256 expand.omega expand.license expand.proof
  throwIf (valid = false) "Invalid initivexpand2 server proof"
  let license ← License.parse expand.license
  let material ← SessionMaterial.derive env.sodium license alpha expand.beta
  let text ← clientEk env.sign material.clientPublicKey expand.beta
  return (material, text)

/-- `m_Transport.Exchange<SetCookie>`. -/
def exchangeCookie (attempt : ℕ) : Bootstrap Init1.SetCookie := do
  send env.bootstrap (Init1.getCookie env.clientVersion (env.unixTime attempt)
    (env.randomBytes attempt).toList)
  let datagram ← receive
  Exec.lift (Init1.SetCookie.parse datagram)

/-- The answer to a puzzle, and `alpha` in it. -/
def solvePuzzle (datagram : Bytes) : Except Failure (Vector UInt8 10 × Bytes) := do
  let puzzle ← Init1.Puzzle.parse datagram
  let solution ← PuzzleSolver.solvePuzzle env.numbers puzzle.x puzzle.n puzzle.level
  let alpha ← generateAlpha env.randBytes
  let initIv ← clientInitIv env.identity env.serverIp alpha
  return (alpha, Init1.puzzleAnswer puzzle solution initIv env.clientVersion)

/-- `Handshake::Run` from `Puzzle::Parse` on. -/
def answerPuzzle (datagram : Bytes) : Bootstrap (SessionBootstrap SessionMaterial) := do
  let answer ← Exec.lift (solvePuzzle env datagram)
  send env.bootstrap answer.2
  modify fun t => { t with sequences := bootstrapSequences }
  bootstrap env.bootstrap (deriveAnswer env answer.1)

/-- A pass of the loop of `Handshake::Run`; `none` is a reset. -/
def attempt (n : ℕ) : Bootstrap (Option (SessionBootstrap SessionMaterial)) := do
  let cookie ← exchangeCookie env n
  send env.bootstrap (Init1.getPuzzle cookie env.clientVersion)
  let rawPuzzle ← receive
  let header ← Exec.lift (Init1.readDatagram InitCodec.readServerHeader rawPuzzle)
  if header.command = Init1.resetCommand then return none
  else
    Exec.lift (throwIf (header.command ≠ Init1.puzzleCommand)
      ("Unexpected Init1 response command: " ++ toString header.command.toNat))
    let result ← answerPuzzle env rawPuzzle
    return some result

/-- The loop of `Handshake::Run`, with the attempts that are left. -/
def runLoop : ℕ → ℕ → Bootstrap (SessionBootstrap SessionMaterial)
  | 0, _ => throw (.runtimeError "Init1 handshake reset too many times")
  | left + 1, n => do
    match ← attempt env n with
    | some result => return result
    | none => runLoop left (n + 1)

def maxAttempts : ℕ := 5

/-- `Handshake::Run`. -/
def run : Bootstrap (SessionBootstrap SessionMaterial) := runLoop env maxAttempts 0

/-! ## What is sent on the way -/

/-- On the way to `s'`, at most `count` datagrams were sent, and each of them satisfies `P`. -/
def Sending (P : Bytes → Prop) (count : ℕ) (s s' : BootstrapTransport) : Prop :=
  ∃ datagrams, s'.sent = s.sent ++ datagrams ∧ datagrams.length ≤ count ∧ ∀ d ∈ datagrams, P d

theorem Sending.none {P : Bytes → Prop} {count : ℕ} {s s' : BootstrapTransport}
    (h : s'.sent = s.sent) : Sending P count s s' :=
  ⟨[], by rw [h, List.append_nil], Nat.zero_le _, by simp⟩

theorem Sending.trans {P : Bytes → Prop} {count count' : ℕ} {s s' s'' : BootstrapTransport}
    (h : Sending P count s s') (h' : Sending P count' s' s'') :
    Sending P (count + count') s s'' := by
  obtain ⟨front, hfront, hcount, hfrontAll⟩ := h
  obtain ⟨back, hback, hcount', hbackAll⟩ := h'
  refine ⟨front ++ back, by rw [hback, hfront, List.append_assoc], ?_, ?_⟩
  · rw [List.length_append]
    omega
  · intro d hd
    rcases List.mem_append.1 hd with hd | hd
    · exact hfrontAll d hd
    · exact hbackAll d hd

theorem Sending.mono {P : Bytes → Prop} {count count' : ℕ} {s s' : BootstrapTransport}
    (h : Sending P count s s') (hcount : count ≤ count') : Sending P count' s s' := by
  obtain ⟨datagrams, hsent, hlength, hall⟩ := h
  exact ⟨datagrams, hsent, hlength.trans hcount, hall⟩

/-- On both exits, `m` has sent at most `count` datagrams, and each of them satisfies `P`. -/
def SendsOnly {α : Type} (P : Bytes → Prop) (count : ℕ) (m : Bootstrap α) : Prop :=
  ∀ s, wp m (fun _ s' => Sending P count s s') (fun _ s' => Sending P count s s') s

namespace SendsOnly

variable {α β : Type} {P : Bytes → Prop} {count count' : ℕ}

theorem bind {m : Bootstrap α} {f : α → Bootstrap β} (hm : SendsOnly P count m)
    (hf : ∀ a, SendsOnly P count' (f a)) : SendsOnly P (count + count') (m >>= f) := by
  intro s
  rw [wp_bind]
  apply wp_mono (hm s)
  · intro a s' hfirst
    apply wp_mono (hf a s')
    · intro b s'' hsecond
      exact hfirst.trans hsecond
    · intro e s'' hsecond
      exact hfirst.trans hsecond
  · intro e s' hfirst
    exact hfirst.mono (Nat.le_add_right _ _)

theorem mono {m : Bootstrap α} (hm : SendsOnly P count m) (hcount : count ≤ count') :
    SendsOnly P count' m := by
  intro s
  apply wp_mono (hm s)
  · intro a s' h
    exact h.mono hcount
  · intro e s' h
    exact h.mono hcount

theorem bind_zero {m : Bootstrap α} {f : α → Bootstrap β} (hm : SendsOnly P count m)
    (hf : ∀ a, SendsOnly P 0 (f a)) : SendsOnly P count (m >>= f) := hm.bind hf

theorem pure (a : α) : SendsOnly P 0 (pure a : Bootstrap α) := fun _ => Sending.none rfl

theorem throw (e : Failure) : SendsOnly P 0 (throw e : Bootstrap α) := fun _ => Sending.none rfl

theorem lift (x : Except Failure α) : SendsOnly P 0 (Exec.lift x : Bootstrap α) := by
  intro s
  rw [wp_lift]
  exact ⟨fun _ _ => Sending.none rfl, fun _ _ => Sending.none rfl⟩

theorem lift_bind {x : Except Failure α} {f : α → Bootstrap β}
    (hf : ∀ a, x = .ok a → SendsOnly P count (f a)) : SendsOnly P count (Exec.lift x >>= f) := by
  intro s
  rw [wp_bind, wp_lift]
  exact ⟨fun a ha => hf a ha s, fun _ _ => Sending.none rfl⟩

theorem get_bind {f : BootstrapTransport → Bootstrap β} (hf : ∀ t, SendsOnly P count (f t)) :
    SendsOnly P count (get >>= f) := fun s => hf s s

theorem receive : SendsOnly P 0 receive := by
  intro s
  unfold BootstrapTransport.receive
  rw [wp_bind, wp_get]
  cases s.inbox with
  | nil => exact Sending.none rfl
  | cons first inbox => exact Sending.none rfl

theorem receivePacket_bind {f : ServerPacket → Bootstrap β} (hf : ∀ packet, SendsOnly P count (f packet)) :
    SendsOnly P count (receivePacket >>= f) := by
  have hpacket : SendsOnly P 0 receivePacket := receive.bind fun _ => .lift _
  exact (hpacket.bind hf).mono (Nat.zero_add count).le

variable {env : BootstrapEnvironment}

theorem send {datagram : Bytes} (h : P datagram) : SendsOnly P 1 (send env datagram) := by
  intro s
  unfold BootstrapTransport.send
  rw [wp_bind, wp_get]
  cases env.sendErrors s.attempts with
  | some error => exact Sending.none rfl
  | none => exact ⟨[datagram], rfl, le_rfl, by simpa using h⟩

theorem zoom {τ : Type} {get : BootstrapTransport → τ}
    {put : τ → BootstrapTransport → BootstrapTransport} (h : ∀ x s, (put x s).sent = s.sent)
    (m : EStateM Failure τ α) : SendsOnly P 0 (Exec.zoom get put m) := by
  intro s
  rw [wp_zoom]
  unfold wp
  cases m (get s) with
  | ok a x => exact Sending.none (h x s)
  | error e x => exact Sending.none (h x s)

theorem onOutgoing {type : PacketType} (m : EStateM Failure PacketSequence α) :
    SendsOnly P 0 (BootstrapTransport.onOutgoing type m) := by
  unfold BootstrapTransport.onOutgoing
  apply zoom
  intro sequence t
  rfl

theorem onIncoming {type : PacketType} (m : EStateM Failure PacketSequence α) :
    SendsOnly P 0 (BootstrapTransport.onIncoming type m) := by
  unfold BootstrapTransport.onIncoming
  apply zoom
  intro sequence t
  rfl

theorem sendEncrypted {type : PacketType} {flags : PacketFlags} {data : Bytes}
    (h : ∀ packetId d, encryptedDatagram env type flags packetId data = .ok d → P d) :
    SendsOnly P 1 (sendEncrypted env type flags data) := by
  unfold BootstrapTransport.sendEncrypted
  apply get_bind
  intro t
  apply lift_bind
  intro datagram hdatagram
  exact (send (h _ _ hdatagram)).bind fun _ => onOutgoing _

end SendsOnly

variable {env}

/-- A message of the Init1 exchange. -/
def IsInit (datagram : Bytes) : Prop := datagram.take 8 = InitCodec.magic

/-- An acknowledgement under the bootstrap key. -/
def IsAck (env : BootstrapEnvironment) (datagram : Bytes) : Prop :=
  ∃ packetId acknowledged,
    encryptedDatagram env .ack .none packetId (BinaryWriter.writeU16 acknowledged) = .ok datagram

theorem isInit_getCookie (clientVersion unixTime : UInt32) (random : Bytes) :
    IsInit (Init1.getCookie clientVersion unixTime random) := rfl

theorem isInit_getPuzzle (cookie : Init1.SetCookie) (clientVersion : UInt32) :
    IsInit (Init1.getPuzzle cookie clientVersion) := rfl

theorem isInit_solvePuzzle {datagram : Bytes} {answer : Vector UInt8 10 × Bytes}
    (h : solvePuzzle env datagram = .ok answer) : IsInit answer.2 := by
  obtain ⟨puzzle, -, h⟩ := bind_eq_ok h
  obtain ⟨solution, -, h⟩ := bind_eq_ok h
  obtain ⟨alpha, -, h⟩ := bind_eq_ok h
  obtain ⟨initIv, -, h⟩ := bind_eq_ok h
  cases h
  rfl

theorem sendsOnly_exchangeCookie (n : ℕ) : SendsOnly IsInit 1 (exchangeCookie env n) := by
  apply (SendsOnly.send (isInit_getCookie _ _ _)).bind_zero
  intro _
  exact SendsOnly.receive.bind fun _ => .lift _

theorem sendsOnly_receivePass (fragments : Fragments) (totalSize : ℕ) :
    SendsOnly (IsAck env.bootstrap) 1 (receivePass env.bootstrap fragments totalSize) := by
  have hack (packet : ServerPacket) : SendsOnly (IsAck env.bootstrap) 1
      (sendAck env.bootstrap packet) :=
    SendsOnly.sendEncrypted fun packetId d hd => ⟨packetId, packet.header.packetId, hd⟩
  apply SendsOnly.receivePacket_bind
  intro packet
  apply SendsOnly.lift_bind
  intro _ _
  apply SendsOnly.lift_bind
  intro plaintext _
  exact (hack packet).bind fun _ => .lift _

/-- A pass of the loop sends one acknowledgement. -/
theorem sendsOnly_receiveLoop (fuel : ℕ) (fragments : Fragments) (totalSize : ℕ) :
    SendsOnly (IsAck env.bootstrap) fuel (receiveLoop env.bootstrap fuel fragments totalSize) := by
  induction fuel generalizing fragments totalSize with
  | zero => exact SendsOnly.throw _
  | succ fuel ih =>
    unfold receiveLoop
    refine SendsOnly.mono ((sendsOnly_receivePass fragments totalSize).bind fun reassembly => ?_)
      (Nat.add_comm 1 fuel).le
    cases reassembly with
    | waiting fragments totalSize => exact ih fragments totalSize
    | command lastId data =>
      have hbehind : SendsOnly (IsAck env.bootstrap) 0 (continueBehind lastId) :=
        SendsOnly.onIncoming _
      exact (hbehind.bind fun _ => .pure data).mono (Nat.zero_le _)

/-! ## What is sent at most -/

/-- A `clientek` for a license whose proof was verified. -/
def IsProven (env : HandshakeEnvironment BN κ) (datagram : Bytes) : Prop :=
  ∃ alpha command expand license material text packetId,
    InitIvExpand2.parse env.decodeBlock command = .ok expand ∧
    P256.verify env.p256 expand.omega expand.license expand.proof = .ok true ∧
    License.parse expand.license = .ok license ∧
    SessionMaterial.derive env.sodium license alpha expand.beta = .ok material ∧
    clientEk env.sign material.clientPublicKey expand.beta = .ok text ∧
    encryptedDatagram env.bootstrap .command .newProtocol packetId text = .ok datagram

/-- The steps of `deriveAnswer`. -/
theorem deriveAnswer_eq_ok {alpha : Vector UInt8 10} {command : Command} {material : SessionMaterial}
    {text : Bytes} (h : deriveAnswer env alpha command = .ok (material, text)) :
    ∃ expand license, InitIvExpand2.parse env.decodeBlock command = .ok expand ∧
      P256.verify env.p256 expand.omega expand.license expand.proof = .ok true ∧
      License.parse expand.license = .ok license ∧
      SessionMaterial.derive env.sodium license alpha expand.beta = .ok material ∧
      clientEk env.sign material.clientPublicKey expand.beta = .ok text := by
  obtain ⟨expand, hexpand, h⟩ := bind_eq_ok h
  obtain ⟨valid, hvalid, h⟩ := bind_eq_ok h
  obtain ⟨_, hproof, h⟩ := bind_eq_ok h
  obtain ⟨license, hlicense, h⟩ := bind_eq_ok h
  obtain ⟨material', hmaterial, h⟩ := bind_eq_ok h
  obtain ⟨text', htext, hreturn⟩ := bind_eq_ok h
  cases hreturn
  have htrue : valid = true := Bool.eq_true_of_not_eq_false (not_of_throwIf hproof)
  rw [htrue] at hvalid
  exact ⟨expand, license, hexpand, hvalid, hlicense, hmaterial, htext⟩

theorem sendsOnly_receiveAck {P : Bytes → Prop} (packetId : UInt16) :
    SendsOnly P 0 (receiveAck env.bootstrap packetId) := by
  apply SendsOnly.receivePacket_bind
  intro packet
  apply SendsOnly.lift_bind
  intro _ _
  apply SendsOnly.get_bind
  intro t
  apply SendsOnly.lift_bind
  intro _ _
  apply SendsOnly.lift_bind
  intro plaintext _
  apply SendsOnly.lift_bind
  intro _ _
  apply SendsOnly.lift_bind
  intro acknowledged _
  apply SendsOnly.lift_bind
  intro _ _
  exact SendsOnly.onIncoming _

/-- At most one command is sent behind the server's, for a verified proof. -/
theorem sendsOnly_answerCommand (alpha : Vector UInt8 10) (plaintext : Bytes) :
    SendsOnly (IsProven env) 1 (answerCommand env.bootstrap (deriveAnswer env alpha) plaintext) := by
  unfold answerCommand
  apply SendsOnly.lift_bind
  intro command _
  apply SendsOnly.lift_bind
  intro _ _
  apply SendsOnly.lift_bind
  rintro ⟨material, text⟩ hderived
  obtain ⟨expand, license, hexpand, hvalid, hlicense, hmaterial, htext⟩ :=
    deriveAnswer_eq_ok hderived
  have hencrypted : SendsOnly (IsProven env) 1
      (sendEncrypted env.bootstrap .command .newProtocol text) :=
    SendsOnly.sendEncrypted fun packetId d hd => ⟨alpha, command, expand, license, material, text,
      packetId, hexpand, hvalid, hlicense, hmaterial, htext, hd⟩
  have hsend : SendsOnly (IsProven env) 1 (sendCommand env.bootstrap text) := by
    apply SendsOnly.lift_bind
    intro _ _
    apply SendsOnly.get_bind
    intro t
    exact hencrypted.bind fun _ => .pure _
  apply hsend.bind_zero
  intro packetId
  exact (sendsOnly_receiveAck packetId).bind fun _ => SendsOnly.get_bind fun _ => .pure _

/-- A handshake that sent at most `count` messages in the clear, then acknowledgements, then at most
one `clientek` for a license whose proof was verified. -/
def Guarded (env : HandshakeEnvironment BN κ) (count : ℕ) (s s' : BootstrapTransport) : Prop :=
  ∃ init acks proven, s'.sent = s.sent ++ init ++ acks ++ proven ∧
    init.length ≤ count ∧ (∀ d ∈ init, IsInit d) ∧ (∀ d ∈ acks, IsAck env.bootstrap d) ∧
    proven.length ≤ 1 ∧ ∀ d ∈ proven, IsProven env d

theorem Guarded.of_init {count : ℕ} {s s' : BootstrapTransport} (h : Sending IsInit count s s') :
    Guarded env count s s' := by
  obtain ⟨init, hsent, hcount, hall⟩ := h
  exact ⟨init, [], [], by simpa using hsent, hcount, hall, by simp, by simp, by simp⟩

theorem Guarded.behind {count count' : ℕ} {s s' s'' : BootstrapTransport}
    (h : Sending IsInit count s s') (h' : Guarded env count' s' s'') :
    Guarded env (count + count') s s'' := by
  obtain ⟨front, hfront, hcount, hfrontAll⟩ := h
  obtain ⟨init, acks, proven, hsent, hcount', hinit, hrest⟩ := h'
  refine ⟨front ++ init, acks, proven, ?_, ?_, ?_, hrest⟩
  · rw [hsent, hfront]
    simp only [List.append_assoc]
  · rw [List.length_append]
    omega
  · intro d hd
    rcases List.mem_append.1 hd with hd | hd
    · exact hfrontAll d hd
    · exact hinit d hd

/-- On both exits, `m` is guarded. -/
def IsGuarded {α : Type} (env : HandshakeEnvironment BN κ) (count : ℕ) (m : Bootstrap α) : Prop :=
  ∀ s, wp m (fun _ s' => Guarded env count s s') (fun _ s' => Guarded env count s s') s

theorem SendsOnly.guarded {α : Type} {count : ℕ} {m : Bootstrap α} (h : SendsOnly IsInit count m) :
    IsGuarded env count m := by
  intro s
  apply wp_mono (h s)
  · intro a s' hsent
    exact .of_init hsent
  · intro e s' hsent
    exact .of_init hsent

theorem SendsOnly.bind_guarded {α β : Type} {count count' : ℕ} {m : Bootstrap α}
    {f : α → Bootstrap β} (hm : SendsOnly IsInit count m) (hf : ∀ a, IsGuarded env count' (f a)) :
    IsGuarded env (count + count') (m >>= f) := by
  intro s
  rw [wp_bind]
  apply wp_mono (hm s)
  · intro a s' hfirst
    apply wp_mono (hf a s')
    · intro b s'' hsecond
      exact .behind hfirst hsecond
    · intro e s'' hsecond
      exact .behind hfirst hsecond
  · intro e s' hfirst
    exact .of_init (hfirst.mono (Nat.le_add_right _ _))

/-- The exchange under the bootstrap key: acknowledgements, and then the answer. -/
theorem isGuarded_bootstrap (alpha : Vector UInt8 10) :
    IsGuarded env 0 (bootstrap env.bootstrap (deriveAnswer env alpha)) := by
  intro s
  unfold bootstrap
  rw [wp_bind]
  have hreceive : SendsOnly (IsAck env.bootstrap) (s.inbox.length + 1)
      (receiveLoop env.bootstrap (s.inbox.length + 1) ∅ 0) := sendsOnly_receiveLoop _ _ _
  apply wp_mono (hreceive s)
  · intro plaintext s' hacks
    obtain ⟨acks, hsent, -, hall⟩ := hacks
    have hanswer (s'' : BootstrapTransport) (h : Sending (IsProven env) 1 s' s'') :
        Guarded env 0 s s'' := by
      obtain ⟨proven, hsent', hcount, hproven⟩ := h
      refine ⟨[], acks, proven, ?_, le_rfl, by simp, hall, hcount, hproven⟩
      rw [hsent', hsent, List.append_nil]
    apply wp_mono (sendsOnly_answerCommand alpha plaintext s')
    · intro _ s'' h
      exact hanswer s'' h
    · intro _ s'' h
      exact hanswer s'' h
  · intro e s' hacks
    obtain ⟨acks, hsent, -, hall⟩ := hacks
    exact ⟨[], acks, [], by simpa using hsent, le_rfl, by simp, hall, by simp, by simp⟩

theorem isGuarded_answerPuzzle (datagram : Bytes) : IsGuarded env 1 (answerPuzzle env datagram) := by
  intro s
  unfold answerPuzzle
  rw [wp_bind, wp_lift]
  constructor
  · intro answer hanswer
    have hsequences : SendsOnly IsInit 0 (modify fun t : BootstrapTransport =>
        { t with sequences := bootstrapSequences }) := fun _ => Sending.none rfl
    have hbehind : IsGuarded env 0 (do
        modify fun t : BootstrapTransport => { t with sequences := bootstrapSequences }
        bootstrap env.bootstrap (deriveAnswer env answer.1)) :=
      hsequences.bind_guarded fun _ => isGuarded_bootstrap answer.1
    exact (SendsOnly.send (isInit_solvePuzzle hanswer)).bind_guarded (fun _ => hbehind) s
  · intro e _
    exact .of_init (.none rfl)

/-- An attempt sends at most three messages in the clear, and two when it is reset. -/
theorem attempt_guarded (n : ℕ) (s : BootstrapTransport) :
    wp (attempt env n)
      (fun result s' => Guarded env 3 s s' ∧ (result = none → Sending IsInit 2 s s'))
      (fun _ s' => Guarded env 3 s s') s := by
  have hshort {s s' : BootstrapTransport} {count : ℕ} (hcount : count ≤ 3)
      (h : Sending IsInit count s s') : Guarded env 3 s s' := .of_init (h.mono hcount)
  unfold attempt
  rw [wp_bind]
  apply wp_mono (sendsOnly_exchangeCookie n s)
  swap
  · intro e s₁ hcookie
    exact hshort (by norm_num) hcookie
  intro cookie s₁ hcookie
  rw [wp_bind]
  apply wp_mono (SendsOnly.send (isInit_getPuzzle cookie env.clientVersion) s₁)
  swap
  · intro e s₂ hpuzzle
    exact hshort (by norm_num) (hcookie.trans hpuzzle)
  intro _ s₂ hpuzzle
  rw [wp_bind]
  apply wp_mono (SendsOnly.receive s₂)
  swap
  · intro e s₃ hreceive
    exact hshort (by norm_num) ((hcookie.trans hpuzzle).trans hreceive)
  intro rawPuzzle s₃ hreceive
  have hsofar : Sending IsInit 2 s s₃ := (hcookie.trans hpuzzle).trans hreceive
  rw [wp_bind, wp_lift]
  refine ⟨fun header _ => ?_, fun e _ => hshort (by norm_num) hsofar⟩
  rw [wp_ite]
  refine ⟨fun _ => ⟨hshort (by norm_num) hsofar, fun _ => hsofar⟩, fun _ => ?_⟩
  rw [wp_bind, wp_lift]
  refine ⟨fun _ _ => ?_, fun e _ => hshort (by norm_num) hsofar⟩
  rw [wp_bind]
  apply wp_mono (isGuarded_answerPuzzle rawPuzzle s₃)
  · intro result s₄ hanswer
    exact ⟨.behind hsofar hanswer, nofun⟩
  · intro e s₄ hanswer
    exact .behind hsofar hanswer

theorem Guarded.mono {count count' : ℕ} {s s' : BootstrapTransport} (h : Guarded env count s s')
    (hcount : count ≤ count') : Guarded env count' s s' := by
  obtain ⟨init, acks, proven, hsent, hlength, hrest⟩ := h
  exact ⟨init, acks, proven, hsent, hlength.trans hcount, hrest⟩

/-- The loop, by induction over the attempts that are left. -/
theorem isGuarded_runLoop (left n : ℕ) : IsGuarded env (2 * left + 1) (runLoop env left n) := by
  induction left generalizing n with
  | zero =>
    intro s
    exact .of_init (.none rfl)
  | succ left ih =>
    intro s
    unfold runLoop
    rw [wp_bind]
    apply wp_mono (attempt_guarded n s)
    · intro result s' hattempt
      cases result with
      | some result => exact hattempt.1.mono (by omega)
      | none =>
        have hreset := hattempt.2 rfl
        apply wp_mono (ih (n + 1) s')
        · intro result s'' hrest
          exact (Guarded.behind hreset hrest).mono (by omega)
        · intro e s'' hrest
          exact (Guarded.behind hreset hrest).mono (by omega)
    · intro e s' hattempt
      exact hattempt.mono (by omega)

/-- **The key leaves only for a proven license.** However a handshake ends, it has sent at most
eleven messages in the clear, then acknowledgements, and then at most one more message: a `clientek`
for a license whose proof was verified. -/
theorem run_guarded (t : BootstrapTransport) : ∃ init acks proven,
    (final (run env) t).sent = t.sent ++ init ++ acks ++ proven ∧
    init.length ≤ 2 * maxAttempts + 1 ∧ (∀ d ∈ init, IsInit d) ∧
    (∀ d ∈ acks, IsAck env.bootstrap d) ∧ proven.length ≤ 1 ∧ ∀ d ∈ proven, IsProven env d :=
  wp_final.1 (isGuarded_runLoop maxAttempts 0 t)

/-! ## What a handshake that returns has exchanged -/

/-- On the way to `u`, the datagrams `received` were taken, and `sent` were sent. -/
structure Exchanged (received sent : List Bytes) (t u : BootstrapTransport) : Prop where
  inbox : t.inbox = received ++ u.inbox
  sent : u.sent = t.sent ++ sent

theorem Exchanged.trans {received received' sent sent' : List Bytes} {t u v : BootstrapTransport}
    (h : Exchanged received sent t u) (h' : Exchanged received' sent' u v) :
    Exchanged (received ++ received') (sent ++ sent') t v := by
  constructor
  · rw [h.inbox, h'.inbox, List.append_assoc]
  · rw [h'.sent, h.sent, List.append_assoc]

theorem exchanged_send {bootstrap : BootstrapEnvironment} {datagram : Bytes} {t u : BootstrapTransport}
    (h : send bootstrap datagram t = .ok () u) : Exchanged [] [datagram] t u := by
  unfold send at h
  rw [run_get_bind] at h
  cases herror : bootstrap.sendErrors t.attempts with
  | some error =>
    rw [herror] at h
    cases h
  | none =>
    rw [herror] at h
    cases h
    exact ⟨rfl, rfl⟩

theorem exchanged_receive {t u : BootstrapTransport} {datagram : Bytes}
    (h : receive t = .ok datagram u) : Exchanged [datagram] [] t u := by
  obtain ⟨hinbox, hu⟩ := receive_eq_ok h
  refine ⟨hinbox, ?_⟩
  rw [hu, List.append_nil]

theorem exchanged_sendEncrypted {bootstrap : BootstrapEnvironment} {type : PacketType}
    {flags : PacketFlags} {data : Bytes} {t u : BootstrapTransport}
    (h : sendEncrypted bootstrap type flags data t = .ok () u) :
    ∃ datagram, encryptedDatagram bootstrap type flags (t.sequences.outgoing type).packetId data =
      .ok datagram ∧ Exchanged [] [datagram] t u := by
  unfold sendEncrypted at h
  rw [run_get_bind, run_lift_bind_eq_ok_iff] at h
  obtain ⟨datagram, hdatagram, h⟩ := h
  obtain ⟨_, s, hsend, hadvance⟩ := (run_bind_eq_ok_iff _).1 h
  refine ⟨datagram, hdatagram, ?_⟩
  have hbehind : Exchanged [] [] s u := by
    unfold onOutgoing zoom at hadvance
    split at hadvance
    · cases hadvance
      exact ⟨rfl, (List.append_nil _).symm⟩
    · cases hadvance
  exact (exchanged_send hsend).trans hbehind

/-- The client's acknowledgement of a datagram of the server. -/
def Acknowledged (env : BootstrapEnvironment) (datagram ack : Bytes) : Prop :=
  ∃ packet packetId, ServerPacket.parse datagram = .ok packet ∧
    encryptedDatagram env .ack .none packetId (BinaryWriter.writeU16 packet.header.packetId) = .ok ack

theorem exchanged_receivePass {bootstrap : BootstrapEnvironment} {fragments : Fragments}
    {totalSize : ℕ} {reassembly : Reassembly} {t u : BootstrapTransport}
    (h : receivePass bootstrap fragments totalSize t = .ok reassembly u) :
    ∃ datagram ack, Acknowledged bootstrap datagram ack ∧ Exchanged [datagram] [ack] t u := by
  unfold receivePass receivePacket at h
  rw [bind_assoc] at h
  obtain ⟨datagram, s, hreceive, h⟩ := (run_bind_eq_ok_iff _).1 h
  obtain ⟨packet, hparse, h⟩ := run_lift_bind_eq_ok_iff.1 h
  obtain ⟨_, -, h⟩ := run_lift_bind_eq_ok_iff.1 h
  obtain ⟨plaintext, -, h⟩ := run_lift_bind_eq_ok_iff.1 h
  obtain ⟨_, u', hack, hadd⟩ := (run_bind_eq_ok_iff _).1 h
  obtain ⟨ack, hdatagram, hsent⟩ := exchanged_sendEncrypted hack
  have hu : u' = u := by
    cases hresult : addFragment fragments totalSize packet plaintext with
    | error failure =>
      rw [hresult] at hadd
      cases hadd
    | ok result =>
      rw [hresult] at hadd
      cases hadd
      rfl
  rw [← hu]
  exact ⟨datagram, ack, ⟨packet, _, hparse, hdatagram⟩, (exchanged_receive hreceive).trans hsent⟩

/-- Each datagram that the loop takes is acknowledged. -/
theorem exchanged_receiveLoop {bootstrap : BootstrapEnvironment} {fuel : ℕ} {fragments : Fragments}
    {totalSize : ℕ} {data : Bytes} {t u : BootstrapTransport}
    (h : receiveLoop bootstrap fuel fragments totalSize t = .ok data u) :
    ∃ received acks, List.Forall₂ (Acknowledged bootstrap) received acks ∧
      Exchanged received acks t u := by
  induction fuel generalizing fragments totalSize t with
  | zero => cases h
  | succ fuel ih =>
    unfold receiveLoop at h
    obtain ⟨reassembly, s, hpass, h⟩ := (run_bind_eq_ok_iff _).1 h
    obtain ⟨datagram, ack, hack, hfirst⟩ := exchanged_receivePass hpass
    cases reassembly with
    | waiting fragments' totalSize' =>
      obtain ⟨received, acks, hall, hrest⟩ := ih h
      exact ⟨datagram :: received, ack :: acks, .cons hack hall, hfirst.trans hrest⟩
    | command lastId result =>
      obtain ⟨_, u', hbehind, hresult⟩ := (run_bind_eq_ok_iff _).1 h
      cases hresult
      have hnothing : Exchanged [] [] s u := by
        unfold continueBehind onIncoming zoom at hbehind
        split at hbehind
        · cases hbehind
          exact ⟨rfl, (List.append_nil _).symm⟩
        · cases hbehind
      exact ⟨[datagram], [ack], .cons hack .nil, hfirst.trans hnothing⟩

/-- The server's acknowledgement of a command. -/
def Confirms (openSsl : OpenSsl) (packetId : UInt16) (datagram : Bytes) : Prop :=
  ∃ packet plaintext, ServerPacket.parse datagram = .ok packet ∧ packet.header.type = .ack ∧
    BootstrapCrypto.decrypt openSsl packet = .ok plaintext ∧ plaintext.length = 2 ∧
    SessionTransport.readPacketId plaintext = .ok packetId

theorem exchanged_receiveAck {bootstrap : BootstrapEnvironment} {packetId : UInt16}
    {t u : BootstrapTransport} (h : receiveAck bootstrap packetId t = .ok () u) :
    ∃ datagram, Confirms bootstrap.openSsl packetId datagram ∧ Exchanged [datagram] [] t u := by
  unfold receiveAck receivePacket acceptAck at h
  rw [bind_assoc] at h
  obtain ⟨datagram, s, hreceive, h⟩ := (run_bind_eq_ok_iff _).1 h
  obtain ⟨packet, hparse, h⟩ := run_lift_bind_eq_ok_iff.1 h
  obtain ⟨_, htype, h⟩ := run_lift_bind_eq_ok_iff.1 h
  rw [run_get_bind] at h
  obtain ⟨_, -, h⟩ := run_lift_bind_eq_ok_iff.1 h
  obtain ⟨plaintext, hdecrypt, h⟩ := run_lift_bind_eq_ok_iff.1 h
  obtain ⟨_, hlength, h⟩ := run_lift_bind_eq_ok_iff.1 h
  obtain ⟨acknowledged, hread, h⟩ := run_lift_bind_eq_ok_iff.1 h
  obtain ⟨_, hmatch, h⟩ := run_lift_bind_eq_ok_iff.1 h
  have hexpected : acknowledged = packetId := not_not.1 (not_of_throwIf hmatch)
  rw [hexpected] at hread
  have hbehind : Exchanged [] [] s u := by
    unfold onIncoming zoom at h
    split at h
    · cases h
      exact ⟨rfl, (List.append_nil _).symm⟩
    · cases h
  exact ⟨datagram, ⟨packet, plaintext, hparse, not_not.1 (not_of_throwIf htype), hdecrypt,
    not_not.1 (not_of_throwIf hlength), hread⟩, (exchanged_receive hreceive).trans hbehind⟩

/-- Behind the server's command: `clientek`, and its acknowledgement. -/
theorem exchanged_answerCommand {alpha : Vector UInt8 10} {plaintext : Bytes}
    {t u : BootstrapTransport} {result : SessionBootstrap SessionMaterial}
    (h : answerCommand env.bootstrap (deriveAnswer env alpha) plaintext t = .ok result u) :
    ∃ command text packetId datagram confirmation,
      CommandParser.parse plaintext = .ok command ∧
      deriveAnswer env alpha command = .ok (result.material, text) ∧
      encryptedDatagram env.bootstrap .command .newProtocol packetId text = .ok datagram ∧
      Confirms env.bootstrap.openSsl packetId confirmation ∧
      Exchanged [confirmation] [datagram] t u := by
  obtain ⟨command, hparse, h⟩ := run_lift_bind_eq_ok_iff.1 h
  obtain ⟨_, -, h⟩ := run_lift_bind_eq_ok_iff.1 h
  obtain ⟨⟨material, text⟩, hderive, h⟩ := run_lift_bind_eq_ok_iff.1 h
  dsimp only at h
  obtain ⟨packetId, s, hsend, h⟩ := (run_bind_eq_ok_iff _).1 h
  obtain ⟨_, v, hack, h⟩ := (run_bind_eq_ok_iff _).1 h
  cases h
  unfold sendCommand at hsend
  obtain ⟨_, -, hsend⟩ := run_lift_bind_eq_ok_iff.1 hsend
  rw [run_get_bind] at hsend
  obtain ⟨_, s', hencrypted, hreturn⟩ := (run_bind_eq_ok_iff _).1 hsend
  cases hreturn
  obtain ⟨datagram, hdatagram, hsent⟩ := exchanged_sendEncrypted hencrypted
  obtain ⟨confirmation, hconfirms, hreceived⟩ := exchanged_receiveAck hack
  exact ⟨command, text, _, datagram, confirmation, hparse, hderive, hdatagram, hconfirms,
    hsent.trans hreceived⟩

variable (env) in
/-- The requests of an attempt: for a cookie, and for a puzzle, which sends the cookie back. -/
def requests (n : ℕ) (cookie : Bytes) : List Bytes :=
  [Init1.getCookie env.clientVersion (env.unixTime n) (env.randomBytes n).toList,
    Init1.createWriter Init1.getPuzzleCommand env.clientVersion ++ (cookie.drop 12).take 20]

variable (env) in
/-- The requests of the attempts that were reset. -/
def resetRequests : ℕ → List (Bytes × Bytes) → List Bytes
  | _, [] => []
  | n, reset :: resets => requests env n reset.1 ++ resetRequests (n + 1) resets

/-- A cookie, and the reset that answers the request for a puzzle. -/
def IsReset (reset : Bytes × Bytes) : Prop :=
  (∃ cookie, Init1.SetCookie.parse reset.1 = .ok cookie) ∧
    ∃ header, Init1.readDatagram InitCodec.readServerHeader reset.2 = .ok header ∧
      header.command = Init1.resetCommand

/-- A handshake from a puzzle on. -/
structure Completed (env : HandshakeEnvironment BN κ) (puzzleDatagram : Bytes) where
  puzzle : Init1.Puzzle
  solution : Bytes
  alpha : Vector UInt8 10
  initIv : Bytes
  fragments : List Bytes
  acks : List Bytes
  plaintext : Bytes
  command : Command
  expand : InitIvExpand2
  license : License
  material : SessionMaterial
  text : Bytes
  packetId : UInt16
  clientEk : Bytes
  confirmation : Bytes
  parsed : Init1.Puzzle.parse puzzleDatagram = .ok puzzle
  solved : PuzzleSolver.solvePuzzle env.numbers puzzle.x puzzle.n puzzle.level = .ok solution
  drawn : generateAlpha env.randBytes = .ok alpha
  keyed : clientInitIv env.identity env.serverIp alpha = .ok initIv
  acknowledged : List.Forall₂ (Acknowledged env.bootstrap) fragments acks
  command_parsed : CommandParser.parse plaintext = .ok command
  expand_parsed : InitIvExpand2.parse env.decodeBlock command = .ok expand
  verified : P256.verify env.p256 expand.omega expand.license expand.proof = .ok true
  license_parsed : License.parse expand.license = .ok license
  derived : SessionMaterial.derive env.sodium license alpha expand.beta = .ok material
  signed : TsCli.clientEk env.sign material.clientPublicKey expand.beta = .ok text
  encrypted : encryptedDatagram env.bootstrap .command .newProtocol packetId text = .ok clientEk
  confirmed : Confirms env.bootstrap.openSsl packetId confirmation

namespace Completed

variable {puzzleDatagram : Bytes} (c : Completed env puzzleDatagram)

/-- What the server sent behind its puzzle. -/
def received : List Bytes := c.fragments ++ [c.confirmation]

/-- What the client sent: the puzzle and its solution, with the client's key. -/
def sent : List Bytes :=
  (Init1.createWriter Init1.puzzleAnswerCommand env.clientVersion ++ puzzleDatagram.drop 12 ++
    c.solution ++ c.initIv) :: c.acks ++ [c.clientEk]

end Completed

/-- The steps of `answerPuzzle`. -/
theorem answerPuzzle_eq_ok {datagram : Bytes} {t u : BootstrapTransport}
    {result : SessionBootstrap SessionMaterial} (h : answerPuzzle env datagram t = .ok result u) :
    ∃ c : Completed env datagram, Exchanged c.received c.sent t u ∧ result.material = c.material := by
  obtain ⟨⟨alpha, answer⟩, hsolve, h⟩ := run_lift_bind_eq_ok_iff.1 h
  obtain ⟨_, s, hsend, h⟩ := (run_bind_eq_ok_iff _).1 h
  obtain ⟨_, s', hmodify, h⟩ := (run_bind_eq_ok_iff _).1 h
  cases hmodify
  obtain ⟨plaintext, v, hreceive, hanswer⟩ := (run_bind_eq_ok_iff _).1 h
  obtain ⟨fragments, acks, hacks, hexchanged⟩ := exchanged_receiveLoop hreceive
  obtain ⟨command, text, packetId, clientEk, confirmation, hcommand, hderive, hdatagram, hconfirms,
    hlast⟩ := exchanged_answerCommand hanswer
  obtain ⟨expand, license, hexpand, hvalid, hlicense, hmaterial, htext⟩ :=
    deriveAnswer_eq_ok hderive
  obtain ⟨puzzle, hpuzzle, hsolve⟩ := bind_eq_ok hsolve
  obtain ⟨solution, hsolution, hsolve⟩ := bind_eq_ok hsolve
  obtain ⟨alpha', halpha, hsolve⟩ := bind_eq_ok hsolve
  obtain ⟨initIv, hinitIv, hreturn⟩ := bind_eq_ok hsolve
  cases hreturn
  have hfirst := exchanged_send hsend
  dsimp only at hfirst
  rw [Init1.puzzleAnswer_echoes hpuzzle] at hfirst
  have hsequences : Exchanged [] [] s { s with sequences := bootstrapSequences } :=
    ⟨rfl, (List.append_nil _).symm⟩
  refine ⟨⟨puzzle, solution, alpha, initIv, fragments, acks, plaintext, command, expand, license,
    result.material, text, packetId, clientEk, confirmation, hpuzzle, hsolution, halpha, hinitIv,
    hacks, hcommand, hexpand, hvalid, hlicense, hmaterial, htext, hdatagram, hconfirms⟩, ?_, rfl⟩
  exact ((hfirst.trans hsequences).trans hexchanged).trans hlast

/-- An attempt that returned: a reset, or the rest of the handshake. -/
theorem attempt_eq_ok {n : ℕ} {t u : BootstrapTransport}
    {result : Option (SessionBootstrap SessionMaterial)} (h : attempt env n t = .ok result u) :
    ∃ cookie puzzle, (∃ parsed, Init1.SetCookie.parse cookie = .ok parsed) ∧
      match result with
      | none => IsReset (cookie, puzzle) ∧ Exchanged [cookie, puzzle] (requests env n cookie) t u
      | some result => ∃ c : Completed env puzzle,
        Exchanged ([cookie, puzzle] ++ c.received) (requests env n cookie ++ c.sent) t u ∧
          result.material = c.material := by
  obtain ⟨parsed, s, hexchange, h⟩ := (run_bind_eq_ok_iff _).1 h
  obtain ⟨_, s₁, hask, hexchange⟩ := (run_bind_eq_ok_iff _).1 hexchange
  obtain ⟨cookie, s₂, hreceive, hparse⟩ := (run_bind_eq_ok_iff _).1 hexchange
  obtain ⟨hcookie, hs⟩ : Init1.SetCookie.parse cookie = .ok parsed ∧ s₂ = s := by
    cases hresult : Init1.SetCookie.parse cookie with
    | error failure =>
      rw [hresult] at hparse
      cases hparse
    | ok value =>
      rw [hresult] at hparse
      cases hparse
      exact ⟨rfl, rfl⟩
  rw [hs] at hreceive
  obtain ⟨_, s₃, hsend, h⟩ := (run_bind_eq_ok_iff _).1 h
  obtain ⟨puzzle, s₄, hpuzzle, h⟩ := (run_bind_eq_ok_iff _).1 h
  obtain ⟨header, hheader, h⟩ := run_lift_bind_eq_ok_iff.1 h
  have hrequest := exchanged_send hsend
  rw [Init1.getPuzzle_echoes hcookie] at hrequest
  have hrequests : Exchanged [cookie, puzzle] (requests env n cookie) t s₄ :=
    (((exchanged_send hask).trans (exchanged_receive hreceive)).trans hrequest).trans
      (exchanged_receive hpuzzle)
  refine ⟨cookie, puzzle, ⟨parsed, hcookie⟩, ?_⟩
  rw [run_ite] at h
  by_cases hreset : header.command = Init1.resetCommand
  · rw [if_pos hreset] at h
    cases h
    exact ⟨⟨⟨parsed, hcookie⟩, header, hheader, hreset⟩, hrequests⟩
  · rw [if_neg hreset] at h
    obtain ⟨_, -, h⟩ := run_lift_bind_eq_ok_iff.1 h
    obtain ⟨completed, v, hanswer, hreturn⟩ := (run_bind_eq_ok_iff _).1 h
    cases hreturn
    obtain ⟨c, hexchanged, hmaterial⟩ := answerPuzzle_eq_ok hanswer
    exact ⟨c, hrequests.trans hexchanged, hmaterial⟩

/-- The loop, by induction over the attempts that are left. -/
theorem runLoop_eq_ok {left n : ℕ} {t u : BootstrapTransport}
    {result : SessionBootstrap SessionMaterial} (h : runLoop env left n t = .ok result u) :
    ∃ resets cookie puzzle, ∃ c : Completed env puzzle, resets.length < left ∧
      (∀ reset ∈ resets, IsReset reset) ∧
      (∃ parsed, Init1.SetCookie.parse cookie = .ok parsed) ∧
      Exchanged (resets.flatMap (fun reset => [reset.1, reset.2]) ++ ([cookie, puzzle] ++ c.received))
        (resetRequests env n resets ++ (requests env (n + resets.length) cookie ++ c.sent)) t u ∧
      result.material = c.material := by
  induction left generalizing n t with
  | zero => cases h
  | succ left ih =>
    obtain ⟨outcome, s, hattempt, h⟩ := (run_bind_eq_ok_iff _).1 h
    obtain ⟨cookie, puzzle, hcookie, hrest⟩ := attempt_eq_ok hattempt
    cases outcome with
    | some completed =>
      cases h
      obtain ⟨c, hexchanged, hmaterial⟩ := hrest
      exact ⟨[], cookie, puzzle, c, Nat.succ_pos left, by simp, hcookie, hexchanged, hmaterial⟩
    | none =>
      obtain ⟨hreset, hfirst⟩ := hrest
      obtain ⟨resets, cookie', puzzle', c, hlength, hresets, hcookie', hexchanged, hmaterial⟩ := ih h
      refine ⟨(cookie, puzzle) :: resets, cookie', puzzle', c, Nat.succ_lt_succ hlength,
        List.forall_mem_cons.2 ⟨hreset, hresets⟩, hcookie', ?_, hmaterial⟩
      have hboth := hfirst.trans hexchanged
      rw [Nat.add_right_comm] at hboth
      simpa [resetRequests, Nat.add_assoc] using hboth

/-- A client with the keys of residues, and with numbers as OpenSSL's. -/
def residueEnvironment : HandshakeEnvironment ℕ Unit where
  bootstrap := { openSsl := .continued, sendErrors := fun _ => none }
  numbers := PuzzleSolver.natural
  p256 := {
    importKey := fun _ => .ok ()
    digestVerify := fun _ _ signature => if signature = shortSignature then 1 else 0
  }
  sodium := .residues
  decodeBlock := Base64.groupsOnly
  identity := { x := 1, y := 2, x_lt := by norm_num, y_lt := by norm_num }
  sign := fun _ => .ok shortSignature
  clientVersion := 1
  serverIp := []
  unixTime := fun n => 1000 + n.toUInt32
  randomBytes := fun _ => counter 4 0
  randBytes := some (counter 10 1)

/-- A datagram of the server under the bootstrap key. -/
def serverDatagram (packetId : UInt16) (type : PacketType) (data : Bytes) : Bytes :=
  let metaData := BinaryWriter.writeU16 packetId ++ [type.value]
  match BootstrapCrypto.encrypt .continued metaData data with
  | .ok encrypted => encrypted.mac ++ metaData ++ encrypted.data
  | .error _ => []

/-- The bytes of the license of residues. -/
def licenseData : Bytes := 1 :: residueLicense.blocks.flatMap (·.raw)

/-- `initivexpand2`, with that license. -/
def residueExpand : Bytes :=
  let encoded := Base64.encodeBlock
  match CommandWriter.writeCommand (ascii "initivexpand2")
    [.write (ascii "l") (encoded licenseData),
      .write (ascii "beta") (encoded (counter 54 11).toList),
      .write (ascii "omega") (encoded [0x30, 0x0d, 0x03, 0x02, 0x07, 0x00, 0x02, 0x01, 0x20, 0x02, 0x01,
        0x01, 0x02, 0x01, 0x02]),
      .write (ascii "ot") (ascii "1"), .write (ascii "proof") (encoded shortSignature)] with
  | .ok text => text
  | .error _ => []

/-- The server's side of a handshake that it resets once. -/
def residueInbox : List Bytes := [
  Init1.serverHeader Init1.setCookieCommand ++ List.replicate 20 7,
  Init1.serverHeader Init1.resetCommand,
  Init1.serverHeader Init1.setCookieCommand ++ List.replicate 20 8 ++ [0, 0, 0],
  Init1.serverHeader Init1.puzzleCommand ++ BigEndian.fixed 64 3 ++ BigEndian.fixed 64 7 ++
    BinaryWriter.writeU32 2 ++ List.replicate 100 9,
  serverDatagram 0 .command residueExpand,
  serverDatagram 0 .ack [0, 1]]

end Handshake

end TsCli
