import TsCli.Audio.JitterOrder

/-!
# Bursts and resets

A reset forgets everything, at the end of each talk burst. What it forgets to remember is which ids
were played: a frame that arrives again after the reset is played again, unless something else
sends it away (`played_once`). What it should not forget are the frames of the next burst that are
already there: they are lost, unless the end comes before they do (`second_burst_played`).
-/

namespace TsCli

namespace VoiceJitterBuffer

open SerialNumber

/-! ## Frames that arrive again -/

namespace History

/-- The ids of all frames that `Pull` returned. -/
def returned (h : History) : List UInt16 := h.earlier ++ played h.stream

/-- A frame that an earlier stream returned is sent away when it arrives again. -/
def SentAway (h : History) : Operation → Prop
  | .push frame =>
    frame.talkEnd = false → frame.voiceId ∈ h.earlier → Late h.buffer frame
  | _ => True

/-- All frames are less than half of all ids ahead of `base`. -/
def Within (base : UInt16) (operations : List Operation) : Prop :=
  ∀ frame, .push frame ∈ operations → ahead base frame.voiceId < 32768

/-- The ids in the buffer, and those that the stream has played. -/
structure Fresh (base : UInt16) (h : History) : Prop where
  inOrder : h.InOrder
  pending : ∀ voiceId, h.buffer.pending.contains voiceId = true →
    ahead base voiceId < 32768 ∧ voiceId ∉ h.earlier
  marker : ∀ marker, h.buffer.endVoiceId = some marker → ahead base marker < 32768
  expected : ∀ expected, h.buffer.expectedVoiceId = some expected → ahead base expected ≤ 32768
  behind : ∀ voiceId ∈ played h.stream, ∀ expected, h.buffer.expectedVoiceId = some expected →
    ahead base voiceId < ahead base expected
  nodup : h.returned.Nodup

variable {base : UInt16} {h : History}

theorem fresh_new (base : UInt16) : Fresh base {} where
  inOrder := inOrder_of []
  pending _ := nofun
  marker := nofun
  expected := nofun
  behind := nofun
  nodup := List.nodup_nil

/-- A stream that has played something is expecting an id. -/
theorem Fresh.stream_eq_nil (hfresh : Fresh base h)
    (hidle : h.buffer.expectedVoiceId = none ∨ h.buffer.started = false) : h.stream = [] := by
  by_contra hstream
  obtain ⟨first, -, hexpected, hstarted⟩ := hfresh.inOrder.order hstream
  rcases hidle with hnone | hnot
  · exact absurd (hexpected.symm.trans hnone) nofun
  · exact absurd (hstarted.symm.trans hnot) nofun

/-- The stream is over. -/
theorem Fresh.endStream (hfresh : Fresh base h) : Fresh base { h with buffer := {} }.endStream where
  inOrder := ⟨wellFormed_new, fun hnil => absurd rfl hnil⟩
  pending _ := nofun
  marker := nofun
  expected := nofun
  behind := nofun
  nodup := by
    show ((h.earlier ++ played h.stream) ++ []).Nodup
    rw [List.append_nil]
    exact hfresh.nodup

/-- An id that is ahead of the expected one is ahead of it from the base, too. -/
theorem Fresh.ahead_base (hfresh : Fresh base h) {expected voiceId : UInt16}
    (hexpected : h.buffer.expectedVoiceId = some expected) (hahead : ahead expected voiceId < 32768) :
    ahead base voiceId = ahead base expected + ahead expected voiceId :=
  ahead_add (by have := hfresh.expected expected hexpected; omega)

/-- An id of the buffer was there before, unless a restart dropped it, or it is the frame's. -/
theorem contains_push {frame : IncomingEncodedFrame} (haway : h.SentAway (.push frame))
    {voiceId : UInt16}
    (hcontains : (VoiceJitterBuffer.push frame h.buffer).pending.contains voiceId = true) :
    ¬ Restarts h.buffer frame ∧ h.buffer.pending.contains voiceId = true ∨
      voiceId = frame.voiceId ∧ frame.voiceId ∉ h.earlier := by
  obtain ⟨entry, hentry⟩ := Registry.contains_iff.1 hcontains
  rcases find?_push hentry with ⟨hnot, hold⟩ | ⟨⟨-, hid, -⟩, hend, hlate⟩
  · exact .inl ⟨hnot, Registry.contains_iff.2 ⟨entry, hold⟩⟩
  · exact .inr ⟨hid.symm, fun hearlier => hlate (haway hend hearlier)⟩

/-- A frame that restarts the buffer begins a stream of its own. -/
theorem Fresh.push_of_restarts (hfresh : Fresh base h) {frame : IncomingEncodedFrame}
    (hbase : ahead base frame.voiceId < 32768) (haway : h.SentAway (.push frame))
    (hrestarts : Restarts h.buffer frame) : Fresh base (h.step (.push frame)) := by
  have horder := hfresh.inOrder.push frame
  -- the frame is ahead of all that the stream has played
  have hplayed : frame.voiceId ∉ played h.stream := fun hmem => by
    obtain ⟨-, expected, hexpected, hfar, hahead⟩ := hrestarts
    have hbehind := hfresh.behind _ hmem expected hexpected
    have hsum := hfresh.ahead_base hexpected hahead
    omega
  rw [step_push_of_restarts hrestarts] at horder ⊢
  refine ⟨horder, fun voiceId hcontains => ?_, fun marker hmarker => ?_,
    fun expected hexpected => ?_, nofun, ?_⟩
  · obtain ⟨rfl, hearlier⟩ := (contains_push haway hcontains).resolve_left fun hold =>
      hold.1 hrestarts
    exact ⟨hbase, fun hmem => (List.mem_append.1 hmem).elim hearlier hplayed⟩
  · replace hmarker : (VoiceJitterBuffer.push frame h.buffer).endVoiceId = some marker := hmarker
    rw [VoiceJitterBuffer.push_of_restarts hrestarts] at hmarker
    cases hmarker
  · replace hexpected : (VoiceJitterBuffer.push frame h.buffer).expectedVoiceId = some expected :=
      hexpected
    rw [VoiceJitterBuffer.push_of_restarts hrestarts] at hexpected
    cases hexpected
    exact hbase.le
  · show ((h.earlier ++ played h.stream) ++ []).Nodup
    rw [List.append_nil]
    exact hfresh.nodup

/-- Without a restart the expected id stays, or nothing was played and it is the frame's; the marker
stays, or it is the frame. -/
theorem Fresh.push_keeps (hfresh : Fresh base h) {frame : IncomingEncodedFrame}
    (hnot : ¬ Restarts h.buffer frame) :
    ((VoiceJitterBuffer.push frame h.buffer).expectedVoiceId = h.buffer.expectedVoiceId ∨
        (VoiceJitterBuffer.push frame h.buffer).expectedVoiceId = some frame.voiceId ∧
          h.stream = []) ∧
      ((VoiceJitterBuffer.push frame h.buffer).endVoiceId = h.buffer.endVoiceId ∨
        (VoiceJitterBuffer.push frame h.buffer).endVoiceId = some frame.voiceId) := by
  have hstep := push_spec frame h.buffer
  generalize VoiceJitterBuffer.push frame h.buffer = buffer' at hstep ⊢
  cases hstep with
  | firstMarker hend hnone => exact ⟨.inr ⟨rfl, hfresh.stream_eq_nil (.inl hnone)⟩, .inr rfl⟩
  | marker expected hend hexpected hahead => exact ⟨.inl rfl, .inr rfl⟩
  | lateMarker hend => exact ⟨.inl rfl, .inl rfl⟩
  | first hend hnone => exact ⟨.inr ⟨rfl, hfresh.stream_eq_nil (.inl hnone)⟩, .inl rfl⟩
  | late hend hlate => exact ⟨.inl rfl, .inl rfl⟩
  | lateStart expected hend hexpected hbehind hstarted hstart hback =>
    exact ⟨.inr ⟨rfl, hfresh.stream_eq_nil (.inr hstarted)⟩, .inl rfl⟩
  | restart hend hrestarts => exact absurd hrestarts hnot
  | stored expected hend hexpected hahead => exact ⟨.inl rfl, .inl rfl⟩

theorem Fresh.push_of_not (hfresh : Fresh base h) {frame : IncomingEncodedFrame}
    (hbase : ahead base frame.voiceId < 32768) (haway : h.SentAway (.push frame))
    (hnot : ¬ Restarts h.buffer frame) : Fresh base (h.step (.push frame)) := by
  have horder := hfresh.inOrder.push frame
  obtain ⟨hexpects, hends⟩ := hfresh.push_keeps hnot
  rw [step_push_of_not hnot] at horder ⊢
  refine ⟨horder, fun voiceId hcontains => ?_, fun marker hmarker => ?_,
    fun expected hexpected => ?_, fun voiceId hmem expected hexpected => ?_, hfresh.nodup⟩
  · rcases contains_push haway hcontains with ⟨-, hold⟩ | ⟨rfl, hearlier⟩
    · exact hfresh.pending voiceId hold
    · exact ⟨hbase, hearlier⟩
  · rcases hends with hsame | hnew
    · exact hfresh.marker marker (hsame.symm.trans hmarker)
    · cases hnew.symm.trans hmarker
      exact hbase
  · rcases hexpects with hsame | ⟨hnew, -⟩
    · exact hfresh.expected expected (hsame.symm.trans hexpected)
    · cases hnew.symm.trans hexpected
      exact hbase.le
  · rcases hexpects with hsame | ⟨-, hnil⟩
    · exact hfresh.behind voiceId hmem expected (hsame.symm.trans hexpected)
    · replace hmem : voiceId ∈ played h.stream := hmem
      rw [hnil] at hmem
      cases hmem

theorem Fresh.push (hfresh : Fresh base h) {frame : IncomingEncodedFrame}
    (hbase : ahead base frame.voiceId < 32768) (haway : h.SentAway (.push frame)) :
    Fresh base (h.step (.push frame)) := by
  by_cases hrestarts : Restarts h.buffer frame
  · exact hfresh.push_of_restarts hbase haway hrestarts
  · exact hfresh.push_of_not hbase haway hrestarts

theorem played_append (stream : List (UInt16 × JitterPullResult))
    (entry : UInt16 × JitterPullResult) : played (stream ++ [entry]) =
      played stream ++ if entry.2.kind = .frame then [entry.2.frame.voiceId] else [] := by
  unfold played
  rw [List.filterMap_append]
  split_ifs with hkind <;> simp [hkind]

/-- The expected id advances by one, when it is in range. -/
theorem Fresh.ahead_succ (hfresh : Fresh base h) {expected : UInt16}
    (hexpected : h.buffer.expectedVoiceId = some expected) :
    ahead base (expected + 1) = ahead base expected + 1 := by
  have hle := hfresh.expected expected hexpected
  have hone := ahead_succ_self expected
  have hsum : ahead base expected + ahead expected (expected + 1) < 65536 := by omega
  rw [ahead_add hsum, hone]

/-- There is something ahead only where ids are left. -/
theorem Fresh.lt_of_future (hfresh : Fresh base h) {expected : UInt16}
    (hexpected : h.buffer.expectedVoiceId = some expected)
    (hfuture : h.buffer.hasFutureData = true) : ahead base expected < 32768 := by
  have hbound : ∀ voiceId, Future expected voiceId → ahead base voiceId < 32768 →
      ahead base expected < 32768 := fun voiceId hfuture hvoiceId => by
    have hsum := hfresh.ahead_base hexpected hfuture.2
    omega
  rcases (hasFutureData_iff hexpected).1 hfuture with ⟨marker, hmarker, hahead⟩ |
    ⟨voiceId, entry, hentry, hahead⟩
  · exact hbound marker hahead (hfresh.marker marker hmarker)
  · exact hbound voiceId hahead (hfresh.pending voiceId (Registry.contains_iff.2 ⟨entry, hentry⟩)).1

theorem Fresh.pull (hfresh : Fresh base h) : Fresh base (h.step .pull) := by
  have horder := hfresh.inOrder.pull
  have hstep := pull_spec h.buffer
  have hsub : ∀ voiceId, (VoiceJitterBuffer.pull h.buffer).2.pending.contains voiceId = true →
      h.buffer.pending.contains voiceId = true := fun voiceId hcontains => by
    obtain ⟨entry, hentry⟩ := Registry.contains_iff.1 hcontains
    exact Registry.contains_iff.2 ⟨entry, find?_pull hentry⟩
  unfold step at horder ⊢
  generalize VoiceJitterBuffer.pull h.buffer = out at horder hstep hsub ⊢
  obtain ⟨result, buffer'⟩ := out
  cases hstep with
  | idle hnone => exact hfresh
  | prebuffering hprebuffering => exact hfresh
  | waiting expected hexpected hready hfuture =>
    exact ⟨horder, hfresh.pending, hfresh.marker, hfresh.expected, hfresh.behind, hfresh.nodup⟩
  | frame expected ready hexpected hready =>
    obtain ⟨hlt, hearlier⟩ := hfresh.pending expected (Registry.contains_iff.2 ⟨ready, hready⟩)
    have hid : ready.voiceId = expected := Registry.key_of_find? hready
    have hsucc := hfresh.ahead_succ hexpected
    have hplayed : ∀ id : UInt16, played (h.stream ++ [(id,
        { kind := .frame, frame := ready, streamStart := h.buffer.firstOutput })]) =
          played h.stream ++ [expected] := fun id => by
      rw [played_append, if_pos rfl, hid]
    refine ⟨horder, fun voiceId hcontains => hfresh.pending voiceId (hsub voiceId hcontains),
      hfresh.marker, fun next hnext => ?_, fun voiceId hmem next hnext => ?_, ?_⟩
    · cases hnext
      omega
    · cases hnext
      rw [hplayed] at hmem
      rcases List.mem_append.1 hmem with hmem | hmem
      · have hbehind := hfresh.behind voiceId hmem expected hexpected
        omega
      · rw [List.mem_singleton.1 hmem]
        omega
    · show (h.earlier ++ played (h.stream ++ [_])).Nodup
      rw [hplayed, ← List.append_assoc]
      refine hfresh.nodup.append (List.nodup_singleton _) (List.disjoint_singleton.2 fun hmem => ?_)
      rcases List.mem_append.1 hmem with hmem | hmem
      · exact hearlier hmem
      · exact absurd (hfresh.behind expected hmem expected hexpected) (lt_irrefl _)
  | packetLoss expected hexpected hready hfuture hlosses =>
    have hlt := hfresh.lt_of_future hexpected hfuture
    have hsucc := hfresh.ahead_succ hexpected
    have hplayed : ∀ entry : UInt16 × JitterPullResult, entry.2.kind = .packetLoss →
        played (h.stream ++ [entry]) = played h.stream := fun entry hkind => by
      rw [played_append, hkind, if_neg nofun, List.append_nil]
    refine ⟨horder, fun voiceId hcontains => hfresh.pending voiceId (hsub voiceId hcontains),
      hfresh.marker, fun next hnext => ?_, fun voiceId hmem next hnext => ?_, ?_⟩
    · cases hnext
      omega
    · cases hnext
      rw [hplayed _ rfl] at hmem
      have hbehind := hfresh.behind voiceId hmem expected hexpected
      omega
    · show (h.earlier ++ played (h.stream ++ [_])).Nodup
      rw [hplayed _ rfl]
      exact hfresh.nodup
  | ended hends => exact hfresh.endStream

/-- **One call**, that sends away what must not be played again. -/
theorem Fresh.step (hfresh : Fresh base h) {operation : Operation}
    (hwithin : ∀ frame, operation = .push frame → ahead base frame.voiceId < 32768)
    (haway : h.SentAway operation) : Fresh base (h.step operation) := by
  cases operation with
  | push frame => exact hfresh.push (hwithin frame rfl) haway
  | pull => exact hfresh.pull
  | reset => exact hfresh.endStream

/-- **No voice frame is played twice**, when every frame that arrives after the reset of the stream
that played it is sent away. -/
theorem played_once {base : UInt16} {operations : List Operation}
    (hwithin : Within base operations) (haway : Runs.Along History.step SentAway {} operations) :
    (of operations).returned.Nodup := by
  have hfresh : Fresh base (of operations) := by
    induction operations using List.reverseRecOn with
    | nil => exact fresh_new base
    | append_singleton operations operation ih =>
      obtain ⟨hearlier, hlast, -⟩ := Runs.along_append.1 haway
      rw [of_append]
      refine (ih (fun frame hmem => hwithin frame (List.mem_append_left _ hmem)) hearlier).step
        (fun frame heq => hwithin frame ?_) hlast
      rw [heq]
      exact List.mem_append_right _ List.mem_cons_self
  exact hfresh.nodup

/-- Speech with an id, and an end marker. -/
def speech (voiceId : UInt16) : IncomingEncodedFrame :=
  { clientId := 1, voiceId, codec := 4, data := [0] }

def endMarker (voiceId : UInt16) : IncomingEncodedFrame :=
  { clientId := 1, voiceId, codec := 4, talkEnd := true }

/-- A duplicate arrives behind the start of the next burst. -/
theorem played_once_nextBurst :
    let operations : List Operation :=
      [.push (speech 10), .push (speech 11), .push (speech 12), .push (endMarker 13), .pull, .pull,
        .pull, .pull, .push (speech 14), .push (speech 12), .push (speech 15), .push (speech 16), .pull]
    Within 10 operations ∧ Runs.Along History.step SentAway {} operations ∧
      (of operations).returned.Nodup := by
  intro operations
  have hwithin : Within 10 operations := fun frame hmem => by
    simp only [operations, List.mem_cons, Operation.push.injEq, reduceCtorEq, false_or, or_false,
      List.not_mem_nil] at hmem
    rcases hmem with rfl | rfl | rfl | rfl | rfl | rfl | rfl | rfl <;> decide
  have haway : Runs.Along History.step SentAway {} operations := by
    refine ⟨fun _ hmem => absurd hmem (by decide), fun _ hmem => absurd hmem (by decide),
      fun _ hmem => absurd hmem (by decide), nofun, trivial, trivial, trivial, trivial,
      fun _ hmem => absurd hmem (by decide), fun _ _ => ⟨14, by decide, by decide, by decide⟩,
      fun _ hmem => absurd hmem (by decide), fun _ hmem => absurd hmem (by decide), trivial,
      trivial⟩
  exact ⟨hwithin, haway, played_once hwithin haway⟩

/-- The frames of a burst arrive again after its end. -/
theorem played_twice_afterEnd : ¬ ∀ (base : UInt16) (operations : List Operation),
    Within base operations → (of operations).returned.Nodup := by
  intro hall
  let burst : List Operation := [.push (speech 10), .push (speech 11), .push (speech 12)]
  have hnodup := hall 10 (burst ++ [.push (endMarker 13), .pull, .pull, .pull, .pull] ++ burst ++ [.pull])
    fun frame hmem => by
      simp only [burst, List.cons_append, List.nil_append, List.mem_cons, Operation.push.injEq,
        reduceCtorEq, false_or, or_false, List.not_mem_nil] at hmem
      rcases hmem with rfl | rfl | rfl | rfl | rfl | rfl | rfl <;> decide
  exact absurd hnodup (by decide)

end History

/-! ## The start of the next burst -/

/-- What happens to the buffer: a packet of the talker arrives, or output is pulled. -/
inductive Turn
  | packet (number : ℕ)
  | pull
  deriving DecidableEq

/-- A turn, for a talker whose packets are numbered. -/
def turn (talk : ℕ → IncomingEncodedFrame) (buffer : VoiceJitterBuffer) : Turn → VoiceJitterBuffer
  | .packet number => push (talk number) buffer
  | .pull => (pull buffer).2

/-- What is pulled in some turns. -/
def outputs (talk : ℕ → IncomingEncodedFrame) : VoiceJitterBuffer → List Turn → List JitterPullResult
  | _, [] => []
  | buffer, .packet number :: turns => outputs talk (push (talk number) buffer) turns
  | buffer, .pull :: turns => (pull buffer).1 :: outputs talk (pull buffer).2 turns

/-- The packet comes within reach of what is expected, with an id of its own among those that are
outstanding, of which there are at most 32. -/
def Arrives (buffer : VoiceJitterBuffer) (frame : IncomingEncodedFrame) : Prop :=
  buffer.pending.find? frame.voiceId = none ∧ buffer.pending.size < maxPendingFrames ∧
    ∀ expected ∈ buffer.expectedVoiceId,
      ahead expected frame.voiceId ≤ 64 ∨ ahead frame.voiceId expected ≤ 64

instance (buffer : VoiceJitterBuffer) : DecidablePred (Arrives buffer) :=
  fun _ => @instDecidableAnd _ _ _ (@instDecidableAnd _ _ _ (Option.decidableForallMem _))

/-- The packet of a turn arrives. -/
def Arriving (talk : ℕ → IncomingEncodedFrame) (buffer : VoiceJitterBuffer) : Turn → Prop
  | .packet number => Arrives buffer (talk number)
  | .pull => True

instance (talk : ℕ → IncomingEncodedFrame) (buffer : VoiceJitterBuffer) :
    DecidablePred (Arriving talk buffer)
  | .packet number => inferInstanceAs (Decidable (Arrives buffer (talk number)))
  | .pull => .isTrue trivial

/-- The numbers of the packets that arrive. -/
def packets (turns : List Turn) : List ℕ :=
  turns.filterMap fun turn => match turn with
    | .packet number => some number
    | .pull => none

/-- Two bursts of a talker: the first one up to an end marker, and the second one from there on. All
of their packets arrive once, in any order within reach of the playback. -/
structure TwoBursts (talk : ℕ → IncomingEncodedFrame) (first marker : ℕ) (turns : List Turn) :
    Prop where
  first_lt : first < marker
  voiceId : ∀ number, (talk number).voiceId = UInt16.ofNat number
  talkEnd : ∀ number, (talk number).talkEnd = true ↔ number = marker
  complete : ∃ count, marker < first + count ∧ (packets turns).Perm (List.range' first count)
  arrives : Runs.Along (turn talk) (Arriving talk) {} turns

/-- The frame waits in the buffer. -/
def Waits (buffer : VoiceJitterBuffer) (frame : IncomingEncodedFrame) : Prop :=
  buffer.pending.find? frame.voiceId = some frame

instance (buffer : VoiceJitterBuffer) : DecidablePred (Waits buffer) :=
  fun _ => inferInstanceAs (Decidable (_ = _))

/-- The packet of the second burst comes before playback has passed it, and no `Pull` ends a stream
while it waits. -/
def Spared (talk : ℕ → IncomingEncodedFrame) (number : ℕ) (buffer : VoiceJitterBuffer) : Turn → Prop
  | .packet number' => number' = number → ¬ Late buffer (talk number)
  | .pull => Ends buffer → ¬ Waits buffer (talk number)

instance (talk : ℕ → IncomingEncodedFrame) (number : ℕ) (buffer : VoiceJitterBuffer) :
    DecidablePred (Spared talk number buffer)
  | .packet _ => inferInstanceAs (Decidable (_ → ¬ _))
  | .pull => inferInstanceAs (Decidable (_ → ¬ _))

section Bursts

variable {talk : ℕ → IncomingEncodedFrame} {buffer : VoiceJitterBuffer}
  {frame entry : IncomingEncodedFrame}

/-- With room for it, a frame is stored and nothing is dropped. -/
theorem store_pending_of_lt (hroom : buffer.pending.size < maxPendingFrames) (expected : UInt16) :
    (buffer.store expected frame).pending = tryEmplace frame buffer.pending := by
  have hle := size_tryEmplace_le frame buffer.pending
  show evictAll expected (tryEmplace frame buffer.pending).size _ = _
  cases (tryEmplace frame buffer.pending).size with
  | zero => rfl
  | succ rounds =>
    rw [evictAll, if_neg]
    omega

theorem Arrives.not_restarts (harrives : Arrives buffer frame) : ¬ Restarts buffer frame := by
  rintro ⟨-, expected, hexpected, hfar, hahead⟩
  have hne : expected ≠ frame.voiceId := fun heq => by
    rw [heq, ahead_self] at hfar
    omega
  have hswap := ahead_swap hne
  rcases harrives.2.2 expected hexpected with hnear | hnear <;> omega

/-- A packet that arrives in time waits, and those that wait still do. -/
theorem Arrives.waits (harrives : Arrives buffer frame) :
    (frame.talkEnd = false → ¬ Late buffer frame → Waits (push frame buffer) frame) ∧
      ∀ entry, Waits buffer entry → Waits (push frame buffer) entry := by
  have hstored : frame.talkEnd = false → ¬ Late buffer frame →
      (push frame buffer).pending = tryEmplace frame buffer.pending := fun hend hlate => by
    obtain ⟨stored, expected, hpush, ⟨hrestarts, -⟩ | ⟨-, hsame⟩⟩ := push_of_taken hend hlate
    · exact absurd hrestarts harrives.not_restarts
    · rw [hpush, store_pending_of_lt (hsame ▸ harrives.2.1), hsame]
  refine ⟨fun hend hlate => ?_, fun entry hwaits => ?_⟩
  · unfold Waits
    rw [hstored hend hlate, find?_tryEmplace, if_pos rfl, harrives.1, Option.getD_none]
  · unfold Waits at hwaits ⊢
    by_cases htaken : frame.talkEnd = true ∨ Late buffer frame
    · rw [(push_of_not_taken htaken).2]
      exact hwaits
    · obtain ⟨hend, hlate⟩ := not_or.1 htaken
      rw [hstored (Bool.not_eq_true _ ▸ hend) hlate, find?_tryEmplace]
      split_ifs with hid
      · rw [hid, harrives.1] at hwaits
        cases hwaits
      · exact hwaits

/-- `Pull` returns a frame that waits, or it still waits. -/
theorem pull_waits (hwaits : Waits buffer entry) (hends : ¬ Ends buffer) :
    (pull buffer).1.kind = .frame ∧ (pull buffer).1.frame = entry ∨ Waits (pull buffer).2 entry := by
  have hstep := pull_spec buffer
  generalize (pull buffer).1 = result at hstep ⊢
  generalize (pull buffer).2 = buffer' at hstep ⊢
  cases hstep with
  | idle hnone => exact .inr hwaits
  | prebuffering hprebuffering => exact .inr hwaits
  | waiting expected hexpected hready hfuture => exact .inr hwaits
  | frame expected ready hexpected hready =>
    by_cases hid : entry.voiceId = expected
    · unfold Waits at hwaits
      rw [hid, hready] at hwaits
      exact .inl ⟨rfl, Option.some.inj hwaits⟩
    · refine .inr ?_
      show (buffer.pending.erase expected).find? entry.voiceId = some entry
      rw [Registry.find?_erase, if_neg hid]
      exact hwaits
  | packetLoss expected hexpected hready hfuture hlosses => exact .inr hwaits
  | ended hends' => exact absurd hends' hends

/-- Over some turns that spare it, a frame that waits is returned, or it still waits. -/
theorem outputs_waits {number : ℕ} {turns : List Turn}
    (harrives : Runs.Along (turn talk) (Arriving talk) buffer turns)
    (hspared : Runs.Along (turn talk) (Spared talk number) buffer turns)
    (hwaits : Waits buffer (talk number)) :
    (∃ result ∈ outputs talk buffer turns, result.kind = .frame ∧ result.frame = talk number) ∨
      Waits (turns.foldl (turn talk) buffer) (talk number) := by
  induction turns generalizing buffer with
  | nil => exact .inr hwaits
  | cons next turns ih =>
    cases next with
    | packet number' =>
      exact ih harrives.2 hspared.2 (Arrives.waits harrives.1 |>.2 _ hwaits)
    | pull =>
      rcases pull_waits hwaits fun hends => hspared.1 hends hwaits with hreturned | hwaits
      · exact .inl ⟨_, List.mem_cons_self, hreturned⟩
      · refine (ih harrives.2 hspared.2 hwaits).imp_left fun ⟨result, hmem, hresult⟩ => ?_
        exact ⟨result, List.mem_cons_of_mem _ hmem, hresult⟩

/-- The turns that only pull. -/
abbrev pulls (count : ℕ) : List Turn := List.replicate count .pull

theorem foldl_pulls (talk : ℕ → IncomingEncodedFrame) (count : ℕ) (buffer : VoiceJitterBuffer) :
    (pulls count).foldl (turn talk) buffer = afterPulls count buffer := by
  induction count generalizing buffer with
  | zero => rfl
  | succ count ih => exact ih (pull buffer).2

theorem arriving_pulls (count : ℕ) (buffer : VoiceJitterBuffer) :
    Runs.Along (turn talk) (Arriving talk) buffer (pulls count) := by
  induction count generalizing buffer with
  | zero => trivial
  | succ count ih => exact ⟨trivial, ih (pull buffer).2⟩

theorem outputs_append (turns turns' : List Turn) (buffer : VoiceJitterBuffer) :
    outputs talk buffer (turns ++ turns') =
      outputs talk buffer turns ++ outputs talk (turns.foldl (turn talk) buffer) turns' := by
  induction turns generalizing buffer with
  | nil => rfl
  | cons next turns ih =>
    cases next with
    | packet number => exact ih (push (talk number) buffer)
    | pull => exact congrArg ((pull buffer).1 :: ·) (ih (pull buffer).2)

/-- A new buffer has nothing to return. -/
theorem outputs_pulls_new (count : ℕ) : ∀ result ∈ outputs talk {} (pulls count),
    result.kind = .wait := by
  induction count with
  | zero => exact nofun
  | succ count ih => exact List.forall_mem_cons.2 ⟨rfl, ih⟩

/-- A buffer that has returned something has started. -/
theorem started_afterPulls {count : ℕ} (hresults : ∀ result ∈ pullResults (count + 1) buffer,
    result.kind = .frame ∨ result.kind = .packetLoss) :
    (afterPulls (count + 1) buffer).started = true := by
  induction count generalizing buffer with
  | zero =>
    have hfirst := hresults _ List.mem_cons_self
    show (pull buffer).2.started = true
    have hstep := pull_spec buffer
    generalize (pull buffer).1 = result at hstep hfirst
    generalize (pull buffer).2 = buffer' at hstep ⊢
    cases hstep with
    | frame expected ready hexpected hready => rfl
    | packetLoss expected hexpected hready hfuture hlosses => rfl
    | _ => rcases hfirst with hfirst | hfirst <;> cases hfirst
  | succ count ih =>
    exact ih fun result hmem => hresults result (List.mem_cons_of_mem _ hmem)

/-- A buffer in which a frame waits does not wait itself, unless it is still to start. -/
theorem prebuffering_of_wait (hwell : WellFormed buffer) (hwaits : Waits buffer entry)
    (hwait : (pull buffer).1.kind = .wait) : Prebuffering buffer := by
  have hpending : buffer.pending.contains entry.voiceId = true :=
    Registry.contains_iff.2 ⟨entry, hwaits⟩
  have hstep := pull_spec buffer
  generalize (pull buffer).1 = result at hstep hwait
  generalize (pull buffer).2 = buffer' at hstep
  cases hstep with
  | idle hnone =>
    rw [(hwell.idle hnone).1] at hpending
    cases hpending
  | prebuffering hprebuffering => exact hprebuffering
  | waiting expected hexpected hready hfuture =>
    have hne : expected ≠ entry.voiceId := fun heq => by
      rw [heq] at hready
      exact absurd (hready.symm.trans hwaits) nofun
    have hle := (hwell.dense expected hexpected).ahead_le hpending
    have hsize := hwell.size
    unfold maxPendingFrames at hsize
    have hfuture' := (hasFutureData_iff hexpected).2
      (.inr ⟨_, entry, hwaits, Nat.pos_of_ne_zero (mt ahead_eq_zero_iff.1 hne), by omega⟩)
    exact absurd (hfuture.symm.trans hfuture') nofun
  | frame => cases hwait
  | packetLoss => cases hwait
  | ended => cases hwait

theorem ends_of_ended (hended : (pull buffer).1.kind = .ended) : Ends buffer := by
  have hstep := pull_spec buffer
  generalize (pull buffer).1 = result at hstep hended
  generalize (pull buffer).2 = buffer' at hstep
  cases hstep with
  | ended hends => exact hends
  | _ => cases hended

theorem wellFormed_turns (turns : List Turn) : WellFormed (turns.foldl (turn talk) {}) :=
  Runs.invariant (fun _ next hwell => match next with
    | .packet number => hwell.push (talk number)
    | .pull => hwell.pull) wellFormed_new turns

end Bursts

/-- Every packet of the second burst is returned by enough calls of `Pull` after it arrived. -/
def SecondBurstPlayed (talk : ℕ → IncomingEncodedFrame) (marker : ℕ) (turns : List Turn) : Prop :=
  ∀ number, marker < number → ∀ front back, turns = front ++ .packet number :: back →
    ∃ count, ∃ result ∈ outputs talk (push (talk number) (front.foldl (turn talk) {}))
      (back ++ pulls count), result.kind = .frame ∧ result.frame = talk number

/-- The packets of the second burst come in time, no stream ends while one of them waits, and once
all have arrived the buffer is not waiting for more of them to start. -/
structure SecondBurstSpared (talk : ℕ → IncomingEncodedFrame) (marker : ℕ) (turns : List Turn) :
    Prop where
  spared : ∀ number ∈ packets turns, marker < number →
    ∀ count, Runs.Along (turn talk) (Spared talk number) {} (turns ++ pulls count)
  starts : ∀ number ∈ packets turns, marker < number →
    Waits (turns.foldl (turn talk) {}) (talk number) → ¬ Prebuffering (turns.foldl (turn talk) {})

/-- **The start of the next burst is played**, when nothing ends the stream while it waits. -/
theorem second_burst_played {talk : ℕ → IncomingEncodedFrame} {first marker : ℕ} {turns : List Turn}
    (hbursts : TwoBursts talk first marker turns) (hspared : SecondBurstSpared talk marker turns) :
    SecondBurstPlayed talk marker turns := by
  rintro number hlater front back rfl
  have hpacket : number ∈ packets (front ++ .packet number :: back) := by simp [packets]
  have hend : (talk number).talkEnd = false := by
    rw [← Bool.not_eq_true, hbursts.talkEnd]
    exact hlater.ne'
  obtain ⟨-, harrives, hafter⟩ := Runs.along_append.1 hbursts.arrives
  have hspare := hspared.spared number hpacket hlater
  -- the packet waits when it has arrived
  have hlate := (Runs.along_append.1 (Runs.along_append.1 (hspare 0)).1).2.1 rfl
  have hwaits := Arrives.waits harrives |>.1 hend hlate
  obtain ⟨count, hresults, hdone⟩ :=
    exists_drained ((front ++ .packet number :: back).foldl (turn talk) {})
  have hsplit : (front ++ .packet number :: back).foldl (turn talk) {} =
      back.foldl (turn talk) (push (talk number) (front.foldl (turn talk) {})) := by
    rw [List.foldl_append, List.foldl_cons]
    rfl
  have hspareCount : ∀ count, Runs.Along (turn talk) (Spared talk number)
      (push (talk number) (front.foldl (turn talk) {})) (back ++ pulls count) := fun count => by
    have hrun := hspare count
    rw [List.append_assoc] at hrun
    exact (Runs.along_append.1 hrun).2.2
  have harrive : Runs.Along (turn talk) (Arriving talk)
      (push (talk number) (front.foldl (turn talk) {})) (back ++ pulls count) :=
    Runs.along_append.2 ⟨hafter, arriving_pulls count _⟩
  refine ⟨count, (outputs_waits harrive (hspareCount count) hwaits).resolve_right fun hstill => ?_⟩
  -- it would still wait when `Pull` has nothing more to return
  rw [List.foldl_append, ← hsplit, foldl_pulls] at hstill
  rcases hdone with hwait | hended
  · have hwell : WellFormed
        (afterPulls count ((front ++ .packet number :: back).foldl (turn talk) {})) := by
      rw [← foldl_pulls talk, ← List.foldl_append]
      exact wellFormed_turns _
    have hprebuffering := prebuffering_of_wait hwell hstill hwait
    cases count with
    | zero => exact hspared.starts number hpacket hlater hstill hprebuffering
    | succ count =>
      exact absurd (hprebuffering.1.symm.trans (started_afterPulls hresults)) nofun
  · have hlast := hspareCount (count + 1)
    rw [pulls, List.replicate_succ', ← List.append_assoc] at hlast
    have hends := (Runs.along_append.1 hlast).2.1
    rw [List.foldl_append, ← hsplit, foldl_pulls] at hends
    exact hends (ends_of_ended hended) hstill

/-- Two short bursts: packets 1 to 3 with the marker 4, and packets from 5 on. -/
def shortBursts (number : ℕ) : IncomingEncodedFrame where
  clientId := 1
  voiceId := UInt16.ofNat number
  codec := 4
  data := if number = 4 then [] else [0]
  talkStart := number = 1 ∨ number = 5
  talkEnd := number = 4

theorem twoBursts_shortBursts {turns : List Turn}
    (hcomplete : ∃ count, 4 < 1 + count ∧ (packets turns).Perm (List.range' 1 count))
    (harrives : Runs.Along (turn shortBursts) (Arriving shortBursts) {} turns) :
    TwoBursts shortBursts 1 4 turns where
  first_lt := by decide
  voiceId _ := rfl
  talkEnd _ := decide_eq_true_iff
  complete := hcomplete
  arrives := harrives

/-- The second burst comes after the first one has ended. -/
theorem second_burst_played_afterEnd :
    let turns : List Turn := [.packet 1, .packet 2, .packet 4, .packet 3, .pull, .pull, .pull, .pull,
      .packet 5, .packet 7, .packet 6, .pull, .pull, .pull]
    TwoBursts shortBursts 1 4 turns ∧ SecondBurstSpared shortBursts 4 turns ∧
      SecondBurstPlayed shortBursts 4 turns := by
  intro turns
  have hbursts : TwoBursts shortBursts 1 4 turns :=
    twoBursts_shortBursts ⟨7, by decide, by decide⟩ (by decide +kernel)
  -- when the three packets are played, nothing changes any more
  have hrest : ∀ number count, Runs.Along (turn shortBursts) (Spared shortBursts number)
      (turns.foldl (turn shortBursts) {}) (pulls count) := fun number count => by
    have hends : ¬ Ends (turns.foldl (turn shortBursts) {}) := by decide +kernel
    have hsame : turn shortBursts (turns.foldl (turn shortBursts) {}) .pull =
        turns.foldl (turn shortBursts) {} := by decide +kernel
    induction count with
    | zero => trivial
    | succ count ih => exact ⟨fun h => absurd h hends, hsame.symm ▸ ih⟩
  have hlater : ∀ number ∈ packets turns, 4 < number →
      Runs.Along (turn shortBursts) (Spared shortBursts number) {} turns ∧
        ¬ Waits (turns.foldl (turn shortBursts) {}) (shortBursts number) := by decide +kernel
  have hspared : SecondBurstSpared shortBursts 4 turns :=
    ⟨fun number hmem h count => Runs.along_append.2 ⟨(hlater number hmem h).1, hrest number count⟩,
      fun number hmem h hwaits => absurd hwaits (hlater number hmem h).2⟩
  exact ⟨hbursts, hspared, second_burst_played hbursts hspared⟩

/-- The end of the first burst takes the second one with it. -/
theorem second_burst_lost_atEnd : ¬ ∀ talk first marker turns,
    TwoBursts talk first marker turns → SecondBurstPlayed talk marker turns := by
  intro hall
  let front : List Turn := [.packet 1, .packet 2, .packet 3, .packet 4]
  let back : List Turn := [.packet 6, .packet 7, .pull, .pull, .pull, .pull]
  let buffer := push (shortBursts 5) (front.foldl (turn shortBursts) {})
  have hbursts : TwoBursts shortBursts 1 4 (front ++ .packet 5 :: back) :=
    twoBursts_shortBursts ⟨7, by decide, by decide⟩ (by decide +kernel)
  obtain ⟨count, result, hmem, hkind, hframe⟩ :=
    hall shortBursts 1 4 _ hbursts 5 (by decide) front back rfl
  rw [outputs_append] at hmem
  rcases List.mem_append.1 hmem with hmem | hmem
  · have hfirst : ∀ result ∈ outputs shortBursts buffer back, result.frame ≠ shortBursts 5 := by
      decide +kernel
    exact hfirst result hmem hframe
  · have hreset : back.foldl (turn shortBursts) buffer = {} := by decide +kernel
    rw [hreset] at hmem
    exact absurd ((outputs_pulls_new count result hmem).symm.trans hkind) nofun

end VoiceJitterBuffer

end TsCli
