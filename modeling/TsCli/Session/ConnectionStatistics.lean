import TsCli.Packet.Format

/-!
# Connection statistics

Counters, time windows and loss estimates of the packets sent and received. The source folds the
round-trip times into two `double` averages; the model keeps the round-trip times themselves, in
the order in which they enter the averages.
-/

namespace TsCli

namespace ConnectionStatistics

/-- `TrafficClass`. -/
inductive TrafficClass
  | speech
  | keepalive
  | control
  deriving DecidableEq, Repr

/-- `TrafficCounters`, without the bandwidths that only a snapshot fills in. -/
structure TrafficCounters where
  packets : ℕ := 0
  bytes : ℕ := 0
  deriving DecidableEq, Repr

/-- `TrafficWindow::Sample`. -/
structure TrafficSample where
  time : TimePoint
  bytes : ℕ
  deriving DecidableEq, Repr

/-- `LossDelta`. -/
structure LossDelta where
  expected : ℕ := 0
  lost : ℤ := 0
  deriving DecidableEq, Repr

/-- `LossWindow::Sample`. -/
structure LossSample where
  time : TimePoint
  expected : ℕ
  lost : ℤ
  deriving DecidableEq, Repr

/-- `LossTracker`. -/
structure LossTracker where
  initialized : Bool := false
  highestSequence : ℕ := 0
  expected : ℕ := 0
  confirmedLost : ℕ := 0
  missing : Finset ℕ := ∅
  deriving DecidableEq

namespace LossTracker

def reorderRetention : ℕ := 4096

/-- `LossTracker::Lost`. -/
def lost (tracker : LossTracker) : ℕ := tracker.confirmedLost + tracker.missing.card

/-- The part of `Observe` for a packet ahead of the highest one. The sequences that fall out of
the retention are lost for good. -/
def advance (forwardDistance : ℕ) (tracker : LossTracker) : LossTracker :=
  let highestSequence := tracker.highestSequence + forwardDistance
  let gap := forwardDistance - 1
  let retainedGap := min gap reorderRetention
  let firstRetained := highestSequence - retainedGap
  let missing := tracker.missing ∪
    (Finset.Ico firstRetained highestSequence).filter (tracker.highestSequence < ·)
  let oldestRetained := highestSequence - reorderRetention
  { initialized := true
    highestSequence
    expected := tracker.expected + forwardDistance
    confirmedLost := tracker.confirmedLost + (gap - retainedGap) +
      (missing.filter (· < oldestRetained)).card
    missing := missing.filter (oldestRetained ≤ ·) }

/-- `LossTracker::Observe`, without its result. -/
def observe (packetId : UInt16) (tracker : LossTracker) : LossTracker :=
  if !tracker.initialized then
    { tracker with initialized := true, highestSequence := packetId.toNat, expected := 1 }
  else
    let highestPacketId := UInt16.ofNat tracker.highestSequence
    let forwardDistance := packetId - highestPacketId
    if forwardDistance = 0 then tracker
    else if forwardDistance < 0x8000 then tracker.advance forwardDistance.toNat
    else
      let backwardDistance := (highestPacketId - packetId).toNat
      if tracker.highestSequence < backwardDistance then tracker
      else { tracker with missing := tracker.missing.erase (tracker.highestSequence - backwardDistance) }

/-- The result of `LossTracker::Observe`. -/
def delta (before after : LossTracker) : LossDelta where
  expected := after.expected - before.expected
  lost := (after.lost : ℤ) - before.lost

end LossTracker

end ConnectionStatistics

open ConnectionStatistics

/-- `ConnectionStatistics`. Arrays over the traffic classes and the packet types are functions;
`rtt` stands for `m_HasRtt`, `m_PingMs` and `m_PingDeviationMs`. -/
structure ConnectionStatistics where
  sent : TrafficClass → TrafficCounters := fun _ => {}
  received : TrafficClass → TrafficCounters := fun _ => {}
  sentWindows : TrafficClass → List TrafficSample := fun _ => []
  receivedWindows : TrafficClass → List TrafficSample := fun _ => []
  loss : PacketType → LossTracker := fun _ => {}
  lossWindows : PacketType → List LossSample := fun _ => []
  startedAt : TimePoint := 0
  rtt : List ℤ := []

namespace ConnectionStatistics

/-- `ConnectionStatistics::Classify`. -/
def classify : PacketType → Option TrafficClass
  | .voice => some .speech
  | .voiceWhisper => some .speech
  | .ping => some .keepalive
  | .pong => some .keepalive
  | .command => some .control
  | .commandLow => some .control
  | .ack => some .control
  | .ackLow => some .control
  | .init1 => none
  | .unnamed _ _ => none

/-- `ConnectionStatistics::TracksIncomingLoss`. -/
def tracksIncomingLoss : PacketType → Bool
  | .voice => true
  | .voiceWhisper => true
  | .ping => true
  | .pong => true
  | .ack => true
  | .ackLow => true
  | .command => false
  | .commandLow => false
  | .init1 => false
  | .unnamed _ _ => false

/-- `ConnectionStatistics::Reset`. -/
def reset (now : TimePoint) : ConnectionStatistics := { startedAt := now }

/-- `TrafficWindow::Add`, which keeps a minute. -/
def addTraffic (now : TimePoint) (packetBytes : ℕ) (samples : List TrafficSample) :
    List TrafficSample :=
  samples.dropWhile (60 * 1000000000 < now - ·.time) ++ [{ time := now, bytes := packetBytes }]

/-- `LossWindow::Add`, which keeps two seconds. -/
def addLoss (now : TimePoint) (delta : LossDelta) (samples : List LossSample) : List LossSample :=
  let samples := samples.dropWhile (2 * 1000000000 < now - ·.time)
  if delta.expected = 0 ∧ delta.lost = 0 then samples
  else samples ++ [{ time := now, expected := delta.expected, lost := delta.lost }]

/-- One more packet. -/
def TrafficCounters.count (packetBytes : ℕ) (counters : TrafficCounters) : TrafficCounters where
  packets := counters.packets + 1
  bytes := counters.bytes + packetBytes

/-- `ConnectionStatistics::RecordSent`. -/
def recordSent (type : PacketType) (packetBytes : ℕ) (now : TimePoint)
    (statistics : ConnectionStatistics) : ConnectionStatistics :=
  match classify type with
  | none => statistics
  | some trafficClass =>
    { statistics with
      sent := Function.update statistics.sent trafficClass
        ((statistics.sent trafficClass).count packetBytes)
      sentWindows := Function.update statistics.sentWindows trafficClass
        (addTraffic now packetBytes (statistics.sentWindows trafficClass)) }

/-- `ConnectionStatistics::RecordReceived`. -/
def recordReceived (type : PacketType) (packetId : UInt16) (packetBytes : ℕ) (now : TimePoint)
    (statistics : ConnectionStatistics) : ConnectionStatistics :=
  match classify type with
  | none => statistics
  | some trafficClass =>
    let statistics := { statistics with
      received := Function.update statistics.received trafficClass
        ((statistics.received trafficClass).count packetBytes)
      receivedWindows := Function.update statistics.receivedWindows trafficClass
        (addTraffic now packetBytes (statistics.receivedWindows trafficClass)) }
    if tracksIncomingLoss type then
      let before := statistics.loss type
      let after := before.observe packetId
      { statistics with
        loss := Function.update statistics.loss type after
        lossWindows := Function.update statistics.lossWindows type
          (addLoss now (before.delta after) (statistics.lossWindows type)) }
    else
      statistics

theorem rtt_recordSent (type : PacketType) (packetBytes : ℕ) (now : TimePoint)
    (statistics : ConnectionStatistics) :
    (statistics.recordSent type packetBytes now).rtt = statistics.rtt := by
  unfold recordSent
  cases classify type <;> rfl

theorem rtt_recordReceived (type : PacketType) (packetId : UInt16) (packetBytes : ℕ)
    (now : TimePoint) (statistics : ConnectionStatistics) :
    (statistics.recordReceived type packetId packetBytes now).rtt = statistics.rtt := by
  unfold recordReceived
  cases classify type with
  | none => rfl
  | some trafficClass =>
    dsimp only
    split_ifs <;> rfl

/-- `ConnectionStatistics::RecordRtt`. -/
def recordRtt (rtt : ℤ) (statistics : ConnectionStatistics) : ConnectionStatistics :=
  if rtt < 0 then statistics else { statistics with rtt := statistics.rtt ++ [rtt] }

end ConnectionStatistics

end TsCli
