import TsCli.Session.Authentication
import TsCli.Session.CommandEffects
import TsCli.Session.Connection

/-!
# Undecodable input

A datagram that is malformed, that is not authentic, or whose voice cannot be decoded, is rejected by
a throw before anything is changed. Nothing between the transport and `Run` catches it, so it ends
the session: `Run` returns `TransportError` and leaves the session as it was.
-/

namespace TsCli

namespace SessionTransport

open Exec

variable {env : Environment} {t : SessionTransport} {datagram : Bytes}

/-- A datagram that is rejected: no server packet, one without authentication, or voice that the
codec rejects. -/
inductive Undecodable (env : Environment) (t : SessionTransport) (datagram : Bytes) : Prop
  | malformed {failure : Failure} (hparse : ServerPacket.parse datagram = .error failure)
  | forged {packet : ServerPacket} (hparse : ServerPacket.parse datagram = .ok packet)
    (hforged : Forged env t packet) (hnamed : packet.header.type.Named)
    (hfirst : ¬ LooksFirstAck t packet)
  | voice {packet : ServerPacket} {generationId : UInt32} {plaintext : Bytes} {failure : Failure}
    (hparse : ServerPacket.parse datagram = .ok packet)
    (htype : packet.header.type = .voice ∨ packet.header.type = .voiceWhisper)
    (hresolve : resolveGeneration (t.sequences.incoming packet.header.type) packet.header.packetId =
      .ok generationId)
    (hopen : openPacket env packet generationId "Invalid unencrypted server Voice MAC" = .ok plaintext)
    (hdecode : VoiceWireCodec.decodeServer plaintext packet.header.flags
      (packet.header.type = .voiceWhisper) = .error failure)

theorem eq_of_parse_error {failure : Failure} (h : ServerPacket.parse datagram = .error failure) :
    failure = .runtimeError "Server packet is too small" := by
  by_cases hlength : datagram.length < 11
  · rw [ServerPacket.parse_of_short hlength] at h
    cases h
    rfl
  · rw [ServerPacket.parse_eq (by omega)] at h
    cases h

theorem eq_of_decodeServer_error {payload : Bytes} {flags : PacketFlags} {whisper : Bool}
    {failure : Failure} (h : VoiceWireCodec.decodeServer payload flags whisper = .error failure) :
    ∃ message, failure = .runtimeError message := by
  unfold VoiceWireCodec.decodeServer at h
  split_ifs at h with hfragmented hshort
  · cases h
    exact ⟨_, rfl⟩
  · cases h
    exact ⟨_, rfl⟩
  · have hlength : 5 ≤ payload.length := not_lt.1 hshort
    -- the five bytes of the header are there, so only the codec can be wrong
    have hread : ∀ failure rest, VoiceWireCodec.readFrame flags whisper payload = .error failure rest →
        failure = .runtimeError "Unsupported TeamSpeak voice codec" := by
      intro failure rest hframe
      unfold VoiceWireCodec.readFrame at hframe
      rw [run_bind_of_ok _ (BinaryReader.run_readU16 (by omega)),
        run_bind_of_ok _ (BinaryReader.run_readU16 (by rw [List.length_drop]; omega)),
        run_bind_of_ok _ (BinaryReader.run_readU8 (by simp only [List.length_drop]; omega)),
        run_ite] at hframe
      split_ifs at hframe
      · cases hframe
        rfl
      · rw [run_get_bind, run_bind_of_ok _ (BinaryReader.run_readBytes le_rfl)] at hframe
        cases hframe
    cases hframe : VoiceWireCodec.readFrame flags whisper payload with
    | ok frame rest =>
      rw [hframe] at h
      cases h
    | error failure' rest =>
      rw [hframe] at h
      cases h
      exact ⟨_, hread failure rest hframe⟩

theorem handleVoice_undecodable {packet : ServerPacket} {generationId : UInt32} {plaintext : Bytes}
    {failure : Failure}
    (hresolve : resolveGeneration (t.sequences.incoming packet.header.type) packet.header.packetId =
      .ok generationId)
    (hopen : openPacket env packet generationId "Invalid unencrypted server Voice MAC" = .ok plaintext)
    (hdecode : VoiceWireCodec.decodeServer plaintext packet.header.flags
      (packet.header.type = .voiceWhisper) = .error failure) :
    Rejects (handleVoice env packet) t := by
  obtain ⟨message, rfl⟩ := eq_of_decodeServer_error hdecode
  refine ⟨message, ?_⟩
  unfold handleVoice
  rw [run_get_bind, run_lift_bind_ok hresolve, run_lift_bind_ok hopen, run_lift_bind_error hdecode]

/-- **Rejected**, and nothing is changed. -/
theorem Undecodable.rejects (h : Undecodable env t datagram) :
    Rejects (processPacket env datagram) t := by
  have hdispatch : ∀ {packet : ServerPacket}, ServerPacket.parse datagram = .ok packet →
      Rejects (dispatch env packet) t → Rejects (processPacket env datagram) t := by
    rintro packet hparse ⟨message, hrun⟩
    refine ⟨message, ?_⟩
    unfold processPacket
    rw [run_lift_bind_ok hparse, run_bind_of_error _ hrun]
  cases h with
  | malformed hparse =>
    rw [eq_of_parse_error hparse] at hparse
    exact rejects_lift_bind hparse _
  | forged hparse hforged hnamed hfirst =>
    exact hdispatch hparse (hforged.dispatch (length_mac_of_parse hparse) hnamed hfirst)
  | voice hparse htype hresolve hopen hdecode =>
    refine hdispatch hparse ?_
    have hvoice := handleVoice_undecodable hresolve hopen hdecode
    unfold dispatch
    obtain htype | htype := htype
    · rw [htype]
      exact hvoice
    · rw [htype]
      exact hvoice

end SessionTransport

namespace Connection

open Exec

variable {env : Environment} {setConnectionInfo : Session.SetConnectionInfo}
  {eventHandler : SessionEvent → Program Unit} {c c₁ c₂ : Connection} {datagram : Bytes}

/-- The throw passes the session, which is as before. -/
theorem processPacket_undecodable {s : Session}
    (h : SessionTransport.Undecodable env s.transport datagram) :
    ∃ message, Session.processPacket env datagram s = .error (.runtimeError message) s := by
  obtain ⟨message, hrun⟩ := h.rejects
  refine ⟨message, ?_⟩
  have htransport : Session.onTransport (SessionTransport.processPacket env datagram) s =
      .error (.runtimeError message) s := by
    unfold Session.onTransport zoom
    rw [hrun]
  unfold Session.processPacket
  rw [run_bind_of_error _ htransport]

/-- The throw passes `Poll`. -/
theorem poll_undecodable {timeout : ℤ} {received : Received}
    (hawait : awaitPacket env setConnectionInfo timeout received c₁ = .ok (some datagram) c₂)
    (h : SessionTransport.Undecodable env c₂.session.transport datagram) :
    ∃ message, poll env setConnectionInfo timeout received c₁ = .error (.runtimeError message) c₂ := by
  obtain ⟨message, hrun⟩ := processPacket_undecodable h
  refine ⟨message, ?_⟩
  have hsession : onSession (Session.processPacket env datagram) c₂ =
      .error (.runtimeError message) c₂ := by
    unfold onSession zoom
    rw [hrun]
  unfold poll
  rw [run_bind_of_ok _ hawait]
  dsimp only
  rw [run_bind_of_error _ hsession]

theorem runLoop_cons (cycle : Cycle) (cycles : List Cycle) :
    runLoop env setConnectionInfo eventHandler (cycle :: cycles) =
      if cycle.stopRequested then return some {}
      else (do
        cycle.cycleHandler.getD (pure ())
        let _ ← poll env setConnectionInfo cycle.maximumWait cycle.received
        dispatchEvents eventHandler
        match ← sessionEnded env with
        | some info => return some info
        | none => runLoop env setConnectionInfo eventHandler cycles) := rfl

/-- A loop that goes on behind its first iterations. -/
theorem runLoop_append {front : List Cycle}
    (h : runLoop env setConnectionInfo eventHandler front c = .ok none c₁) (back : List Cycle) :
    runLoop env setConnectionInfo eventHandler (front ++ back) c =
      runLoop env setConnectionInfo eventHandler back c₁ := by
  induction front generalizing c with
  | nil =>
    cases h
    rfl
  | cons cycle front ih =>
    rw [runLoop_cons, run_ite] at h
    rw [List.cons_append, runLoop_cons, run_ite]
    split_ifs at h ⊢
    · cases h
    · obtain ⟨_, c₂, hhandler, h⟩ := (run_bind_eq_ok_iff _).1 h
      obtain ⟨_, c₃, hpoll, h⟩ := (run_bind_eq_ok_iff _).1 h
      obtain ⟨_, c₄, hdispatch, h⟩ := (run_bind_eq_ok_iff _).1 h
      obtain ⟨ended, c₅, hended, h⟩ := (run_bind_eq_ok_iff _).1 h
      rw [run_bind_of_ok _ hhandler, run_bind_of_ok _ hpoll, run_bind_of_ok _ hdispatch,
        run_bind_of_ok _ hended]
      cases ended with
      | some info => cases h
      | none => exact ih h

/-- The throw passes the loop of `Run`. -/
theorem runLoop_undecodable {front : List Cycle} {cycle : Cycle}
    (hfront : runLoop env setConnectionInfo eventHandler front c = .ok none c₁)
    (hstop : cycle.stopRequested = false)
    (hawait : cycle.await env setConnectionInfo c₁ = .ok (some datagram) c₂)
    (h : SessionTransport.Undecodable env c₂.session.transport datagram) (back : List Cycle) :
    ∃ message, runLoop env setConnectionInfo eventHandler (front ++ cycle :: back) c =
      .error (.runtimeError message) c₂ := by
  obtain ⟨_, c', hhandler, hawait⟩ := (run_bind_eq_ok_iff _).1 hawait
  obtain ⟨message, hpoll⟩ := poll_undecodable hawait h
  refine ⟨message, ?_⟩
  rw [runLoop_append hfront]
  unfold runLoop
  rw [hstop, run_ite, if_neg (by simp), run_bind_of_ok _ hhandler, run_bind_of_error _ hpoll]

/-- A farewell that goes on behind its first polls. -/
theorem disconnectLoop_undecodable {deadline : TimePoint} {front : List Received}
    {received : Received} {timeout : ℤ}
    (hfront : disconnectLoop env setConnectionInfo eventHandler deadline front c =
      .ok (some timeout) c₁)
    (hawait : awaitPacket env setConnectionInfo timeout received c₁ = .ok (some datagram) c₂)
    (h : SessionTransport.Undecodable env c₂.session.transport datagram) (back : List Received) :
    ∃ message, disconnectLoop env setConnectionInfo eventHandler deadline
      (front ++ received :: back) c = .error (.runtimeError message) c₂ := by
  induction front generalizing c with
  | nil =>
    obtain ⟨message, hpoll⟩ := poll_undecodable hawait h
    refine ⟨message, ?_⟩
    rw [List.nil_append]
    unfold disconnectLoop at hfront ⊢
    rw [run_bind_of_ok _ hfront]
    dsimp only
    rw [run_bind_of_error _ hpoll]
  | cons earlier front ih =>
    unfold disconnectLoop at hfront
    obtain ⟨next, c₃, hnext, hfront⟩ := (run_bind_eq_ok_iff _).1 hfront
    cases next with
    | none => cases hfront
    | some timeout' =>
      obtain ⟨_, c₄, hpoll, hfront⟩ := (run_bind_eq_ok_iff _).1 hfront
      obtain ⟨_, c₅, hdispatch, hfront⟩ := (run_bind_eq_ok_iff _).1 hfront
      obtain ⟨message, hrun⟩ := ih hfront
      refine ⟨message, ?_⟩
      rw [List.cons_append]
      unfold disconnectLoop
      rw [run_bind_of_ok _ hnext]
      dsimp only
      rw [run_bind_of_ok _ hpoll, run_bind_of_ok _ hdispatch, hrun]

/-- `Run` reports what its body throws. -/
theorem run_of_body_error {cycles : List Cycle} {farewell : List Received} {message : String}
    (hestablished : c.state = .established)
    (h : runBody env setConnectionInfo eventHandler cycles farewell c =
      .error (.runtimeError message) c₂) :
    run env setConnectionInfo eventHandler cycles farewell c =
      .ok (some { reason := .transportError, message := ascii message })
        { c₂ with state := .closed } := by
  have hrequire : requireEstablished c = .ok () c := by
    unfold requireEstablished
    rw [run_get_bind, hestablished]
    rfl
  unfold run
  rw [run_bind_of_ok _ hrequire]
  unfold report
  rw [h]

/-- **Undecodable input** ends an established session. A datagram that is rejected in the loop of
`Run`, or while it says goodbye, makes `Run` return `TransportError` and close the connection, with
the session as it was before the datagram. -/
theorem run_undecodable (env : Environment) (setConnectionInfo : Session.SetConnectionInfo)
    (eventHandler : SessionEvent → Program Unit) {c : Connection}
    (hestablished : c.state = .established) :
    (∀ front cycle back farewell c₀ c₁ c₂ datagram, dispatchEvents eventHandler c = .ok () c₀ →
      runLoop env setConnectionInfo eventHandler front c₀ = .ok none c₁ →
      cycle.stopRequested = false →
      cycle.await env setConnectionInfo c₁ = .ok (some datagram) c₂ →
      SessionTransport.Undecodable env c₂.session.transport datagram →
      ∃ message, run env setConnectionInfo eventHandler (front ++ cycle :: back) farewell c =
        .ok (some { reason := .transportError, message }) { c₂ with state := .closed }) ∧
    ∀ cycles front received back info timeout c₀ c' c₁ c₂ datagram,
      dispatchEvents eventHandler c = .ok () c₀ →
      runLoop env setConnectionInfo eventHandler cycles c₀ = .ok (some info) c' →
      info.reason = .localRequest →
      disconnectGracefully env setConnectionInfo eventHandler (ascii "Client disconnected") front c' =
        .ok (some timeout) c₁ →
      awaitPacket env setConnectionInfo timeout received c₁ = .ok (some datagram) c₂ →
      SessionTransport.Undecodable env c₂.session.transport datagram →
      ∃ message, run env setConnectionInfo eventHandler cycles (front ++ received :: back) c =
        .ok (some { reason := .transportError, message }) { c₂ with state := .closed } := by
  constructor
  · intro front cycle back farewell c₀ c₁ c₂ datagram hdispatch hfront hstop hawait h
    obtain ⟨message, hloop⟩ := runLoop_undecodable hfront hstop hawait h back
    refine ⟨ascii message, run_of_body_error hestablished ?_⟩
    unfold runBody
    rw [run_bind_of_ok _ hdispatch, run_bind_of_error _ hloop]
  · intro cycles front received back info timeout c₀ c' c₁ c₂ datagram hdispatch hloop hlocal
      hfarewell hawait h
    obtain ⟨_, c₃, hdisconnect, hfarewell⟩ := (run_bind_eq_ok_iff _).1 hfarewell
    obtain ⟨time, c₄, htime, hfarewell⟩ := (run_bind_eq_ok_iff _).1 hfarewell
    obtain ⟨message, hrun⟩ := disconnectLoop_undecodable hfarewell hawait h back
    have hgraceful : disconnectGracefully env setConnectionInfo eventHandler
        (ascii "Client disconnected") (front ++ received :: back) c' =
          .error (.runtimeError message) c₂ := by
      unfold disconnectGracefully
      rw [run_bind_of_ok _ hdisconnect, run_bind_of_ok _ htime, hrun]
    refine ⟨ascii message, run_of_body_error hestablished ?_⟩
    unfold runBody
    rw [run_bind_of_ok _ hdispatch, run_bind_of_ok _ hloop]
    dsimp only
    rw [if_pos hlocal, run_bind_of_error _ hgraceful]

/-- A connection behind the login. -/
def connected : Connection where
  state := .established
  session := Session.loggedIn

/-- A handler that does nothing with an event. -/
def silent : SessionEvent → Program Unit := fun _ => pure ()

/-- No connection information is asked for. -/
def noInfo : Session.SetConnectionInfo := fun _ _ => .ok []

/-- Three bytes arrive. -/
def shortDatagram : Received := fun _ => .ok (some [1, 2, 3])

/-- In the loop, and while saying goodbye. -/
theorem run_undecodable_short :
    (∃ message, run Session.workingNetwork noInfo silent [{ received := shortDatagram }] [] connected =
        .ok (some { reason := .transportError, message })
          { final (Cycle.await Session.workingNetwork noInfo
              { received := shortDatagram }) connected with state := .closed }) ∧
    ∃ message c₁, run Session.workingNetwork noInfo silent [{ stopRequested := true }]
        [shortDatagram] connected =
        .ok (some { reason := .transportError, message })
          { final (awaitPacket Session.workingNetwork noInfo (milliseconds 100)
              shortDatagram) c₁ with state := .closed } := by
  have hshort (t : SessionTransport) :
      SessionTransport.Undecodable Session.workingNetwork t [1, 2, 3] :=
    .malformed (ServerPacket.parse_of_short (by decide))
  have hdispatch : dispatchEvents silent connected = .ok () connected := by
    have hevents : connected.session.events.length = 0 := by decide +kernel
    unfold dispatchEvents
    rw [run_get_bind, hevents]
    rfl
  constructor
  · exact (run_undecodable _ _ _ rfl).1 [] _ [] [] _ _ _ [1, 2, 3] hdispatch rfl rfl
      (eq_ok_of_returned? (by decide +kernel)) (hshort _)
  · obtain ⟨message, h⟩ := (run_undecodable Session.workingNetwork noInfo silent
      (c := connected) rfl).2 [{ stopRequested := true }] [] shortDatagram [] {} (milliseconds 100) _ _
      (final (disconnectGracefully Session.workingNetwork noInfo silent
        (ascii "Client disconnected") []) connected) _ [1, 2, 3] hdispatch rfl rfl
      (eq_ok_of_returned? (by decide +kernel)) (eq_ok_of_returned? (by decide +kernel)) (hshort _)
    exact ⟨message, _, h⟩

/-- A datagram of three bytes ends the session. -/
theorem run_ended_by_short_datagram :
    connected.state = .established ∧
    returned? (run Session.workingNetwork noInfo silent
      [{ received := shortDatagram }] []) connected =
        some (some { reason := .transportError, message := ascii "Server packet is too small" }) ∧
    (final (run Session.workingNetwork noInfo silent
      [{ received := shortDatagram }] []) connected).state = .closed := by
  refine ⟨rfl, by decide +kernel, by decide +kernel⟩

end Connection

end TsCli
