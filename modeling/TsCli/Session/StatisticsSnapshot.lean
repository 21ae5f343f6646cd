import TsCli.Lib.TimeWindow
import TsCli.Session.LossTracking

/-!
# Snapshots of the statistics

What `GetSnapshot` reports, up to its floating-point divisions: a rate is the bytes and the time,
a loss the lost and the expected packets. The windows have dropped old samples by then; a snapshot
is the same as one of the samples since `Reset` (`fullHistory`), which only the calls determine.
-/

namespace TsCli

namespace ConnectionStatistics

/-! ## Queries -/

def seconds (n : ℤ) : ℤ := n * 1000000000

/-- The samples that a query from `start` on counts. -/
def within (start now time : TimePoint) : Bool := start ≤ time ∧ time ≤ now

/-- `LossWindow::Totals`: the lost and the expected packets. -/
def totals (now : TimePoint) (window : ℤ) (samples : List LossSample) : ℕ × ℕ :=
  let counted := samples.filter fun sample => within (now - window) now sample.time
  let expected := (counted.map LossSample.expected).sum
  let lost := (counted.map LossSample.lost).sum
  if lost ≤ 0 ∨ expected = 0 then (0, expected) else (min lost.toNat expected, expected)

/-- `TrafficWindow::Rate`: the bytes and the time that they took, if it has passed. -/
def rate (now statisticsStartedAt : TimePoint) (window : ℤ) (samples : List TrafficSample) :
    Option (ℕ × ℤ) :=
  if now ≤ statisticsStartedAt then none
  else
    let effectiveStart := max (now - window) statisticsStartedAt
    let counted := samples.filter fun sample => within effectiveStart now sample.time
    some ((counted.map TrafficSample.bytes).sum, max (now - effectiveStart) (seconds 1))

/-- The named packet types, in the order of their values. -/
def packetTypes : List PacketType :=
  [.voice, .voiceWhisper, .command, .commandLow, .ping, .pong, .ack, .ackLow, .init1]

/-- `ConnectionStatistics::LossTotals`. -/
def lossTotals (trafficClass : TrafficClass) (now : TimePoint)
    (statistics : ConnectionStatistics) : ℕ × ℕ :=
  let counted := packetTypes.filter fun type =>
    classify type = some trafficClass ∧ tracksIncomingLoss type
  (counted.map fun type => totals now (seconds 1) (statistics.lossWindows type)).sum

/-- `bandwidthLastSecond` and `bandwidthLastMinute`. -/
structure Bandwidth where
  lastSecond : Option (ℕ × ℤ)
  lastMinute : Option (ℕ × ℤ)
  deriving DecidableEq, Repr

/-- `Snapshot`, by traffic class. -/
structure Snapshot where
  rtt : List ℤ
  sent : TrafficClass → TrafficCounters
  received : TrafficClass → TrafficCounters
  sentBandwidth : TrafficClass → Bandwidth
  receivedBandwidth : TrafficClass → Bandwidth
  packetLoss : TrafficClass → ℕ × ℕ
  packetLossTotal : ℕ × ℕ

def bandwidth (now statisticsStartedAt : TimePoint) (samples : List TrafficSample) : Bandwidth where
  lastSecond := rate now statisticsStartedAt (seconds 1) samples
  lastMinute := rate now statisticsStartedAt (seconds 60) samples

/-- `ConnectionStatistics::GetSnapshot`. -/
def getSnapshot (now : TimePoint) (statistics : ConnectionStatistics) : Snapshot where
  rtt := statistics.rtt
  sent := statistics.sent
  received := statistics.received
  sentBandwidth trafficClass :=
    bandwidth now statistics.startedAt (statistics.sentWindows trafficClass)
  receivedBandwidth trafficClass :=
    bandwidth now statistics.startedAt (statistics.receivedWindows trafficClass)
  packetLoss trafficClass := statistics.lossTotals trafficClass now
  packetLossTotal :=
    statistics.lossTotals .speech now + statistics.lossTotals .keepalive now +
      statistics.lossTotals .control now

/-- A loss is a part of what was expected. -/
theorem totals_le (now : TimePoint) (window : ℤ) (samples : List LossSample) :
    (totals now window samples).1 ≤ (totals now window samples).2 := by
  unfold totals
  simp only
  split_ifs
  · exact Nat.zero_le _
  · exact min_le_right _ _

theorem lossTotals_le (trafficClass : TrafficClass) (now : TimePoint)
    (statistics : ConnectionStatistics) :
    (statistics.lossTotals trafficClass now).1 ≤ (statistics.lossTotals trafficClass now).2 := by
  unfold lossTotals
  simp only
  induction packetTypes.filter fun type =>
    classify type = some trafficClass ∧ tracksIncomingLoss type with
  | nil => exact le_rfl
  | cons type types ih =>
    rw [List.map_cons, List.sum_cons]
    exact Nat.add_le_add (totals_le now (seconds 1) (statistics.lossWindows type)) ih

/-! ## Histories -/

/-- A call. -/
inductive Operation
  | recordSent (type : PacketType) (packetBytes : ℕ) (now : TimePoint)
  | recordReceived (type : PacketType) (packetId : UInt16) (packetBytes : ℕ) (now : TimePoint)
  | getSnapshot (now : TimePoint)

namespace Operation

def time : Operation → TimePoint
  | recordSent _ _ now => now
  | recordReceived _ _ _ now => now
  | getSnapshot now => now

/-- The sample that the call adds for sent packets of a class. -/
def sent? (trafficClass : TrafficClass) : Operation → Option TrafficSample
  | recordSent type packetBytes now =>
    if classify type = some trafficClass then some { time := now, bytes := packetBytes } else none
  | _ => none

/-- The sample that the call adds for received packets of a class. -/
def received? (trafficClass : TrafficClass) : Operation → Option TrafficSample
  | recordReceived type _ packetBytes now =>
    if classify type = some trafficClass then some { time := now, bytes := packetBytes } else none
  | _ => none

/-- The packet id that the loss tracker of a type sees. -/
def observed? (type : PacketType) : Operation → Option (TimePoint × UInt16)
  | recordReceived type' packetId _ now =>
    if type' = type ∧ tracksIncomingLoss type then some (now, packetId) else none
  | _ => none

end Operation

/-- A call, on the statistics. -/
def step (statistics : ConnectionStatistics) : Operation → ConnectionStatistics
  | .recordSent type packetBytes now => statistics.recordSent type packetBytes now
  | .recordReceived type packetId packetBytes now =>
    statistics.recordReceived type packetId packetBytes now
  | .getSnapshot _ => statistics

/-- The loss samples of all packets of a type. -/
def lossHistory (type : PacketType) (operations : List Operation) : List LossSample :=
  let observed := operations.filterMap (Operation.observed? type)
  List.zipWith (fun (entry : TimePoint × UInt16) (delta : LossDelta) =>
      { time := entry.1, expected := delta.expected, lost := delta.lost })
    observed (LossTracker.deltas {} (observed.map Prod.snd))

/-- The statistics with the samples of all calls since `Reset` in their windows. -/
def fullHistory (operations : List Operation) (statistics : ConnectionStatistics) :
    ConnectionStatistics :=
  { statistics with
    sentWindows := fun trafficClass => operations.filterMap (Operation.sent? trafficClass)
    receivedWindows := fun trafficClass => operations.filterMap (Operation.received? trafficClass)
    lossWindows := fun type => lossHistory type operations }

/-! ## Retention -/

section Retention

open TimeWindow

/-- The window of a traffic class keeps a minute. -/
def RetainsTraffic (now : TimePoint) (window samples : List TrafficSample) : Prop :=
  Retains TrafficSample.time (seconds 60) now window samples

/-- A sample that counts something. -/
def Counted (sample : LossSample) : Bool := ¬ (sample.expected = 0 ∧ sample.lost = 0)

/-- The window of a packet type keeps two seconds of the samples that count something. -/
def RetainsLoss (now : TimePoint) (window samples : List LossSample) : Prop :=
  Retains LossSample.time (seconds 2) now window (samples.filter Counted)

variable {last now : TimePoint}

theorem RetainsTraffic.add {window samples : List TrafficSample}
    (h : RetainsTraffic last window samples) (hle : last ≤ now) (packetBytes : ℕ) :
    RetainsTraffic now (addTraffic now packetBytes window)
      (samples ++ [{ time := now, bytes := packetBytes }]) :=
  (h.later hle).prune.append _

theorem RetainsLoss.add {window samples : List LossSample} (h : RetainsLoss last window samples)
    (hle : last ≤ now) (delta : LossDelta) :
    RetainsLoss now (addLoss now delta window)
      (samples ++ [{ time := now, expected := delta.expected, lost := delta.lost }]) := by
  unfold RetainsLoss at h ⊢
  have hpruned := (h.later hle).prune
  have hwindow : addLoss now delta window = prune LossSample.time (seconds 2) now window ++
      [{ time := now, expected := delta.expected, lost := delta.lost }].filter Counted := by
    show (if _ then prune LossSample.time (seconds 2) now window else _) = _
    by_cases hzero : delta.expected = 0 ∧ delta.lost = 0
    · simp [Counted, hzero]
    · have hkept : Counted { time := now, expected := delta.expected, lost := delta.lost } = true :=
        decide_eq_true hzero
      rw [if_neg hzero, List.filter_cons_of_pos hkept, List.filter_nil]
      rfl
  rw [List.filter_append, hwindow]
  exact hpruned.append _

theorem RetainsTraffic.rate_eq {window samples : List TrafficSample}
    (h : RetainsTraffic now window samples) (startedAt : TimePoint) {length : ℤ}
    (hlength : length ≤ seconds 60) :
    rate now startedAt length window = rate now startedAt length samples := by
  unfold rate
  dsimp only
  rw [h.filter_eq fun sample hsample => ?_]
  have hstart : max (now - length) startedAt ≤ sample.time := by
    simp only [within, decide_eq_true_eq] at hsample
    exact hsample.1
  have := (le_max_left _ _).trans hstart
  linarith

theorem RetainsTraffic.bandwidth_eq {window samples : List TrafficSample}
    (h : RetainsTraffic now window samples) (startedAt : TimePoint) :
    bandwidth now startedAt window = bandwidth now startedAt samples := by
  unfold bandwidth
  rw [h.rate_eq startedAt (by decide), h.rate_eq startedAt le_rfl]

theorem RetainsLoss.totals_eq {window samples : List LossSample}
    (h : RetainsLoss now window samples) {length : ℤ} (hlength : length ≤ seconds 2) :
    totals now length window = totals now length samples := by
  have hcounted : window.filter (fun sample => within (now - length) now sample.time) =
      (samples.filter fun sample => within (now - length) now sample.time).filter Counted := by
    rw [h.filter_eq fun sample hsample => ?_, List.filter_filter, List.filter_filter]
    · simp only [Bool.and_comm]
    · simp only [within, decide_eq_true_eq] at hsample
      linarith [hsample.1]
  have hzero : ∀ sample : LossSample, Counted sample = false →
      sample.expected = 0 ∧ sample.lost = 0 := fun sample hsample => by
    simpa [Counted] using hsample
  unfold totals
  dsimp only
  rw [hcounted, sum_map_filter fun sample hsample => (hzero sample hsample).1,
    sum_map_filter fun sample hsample => (hzero sample hsample).2]

end Retention

/-! ## Runs -/

theorem LossTracker.length_deltas (tracker : LossTracker) (packetIds : List UInt16) :
    (tracker.deltas packetIds).length = packetIds.length := by
  induction packetIds generalizing tracker with
  | nil => rfl
  | cons packetId packetIds ih => simp [LossTracker.deltas, ih]

theorem lossHistory_append (type : PacketType) (operations : List Operation)
    (operation : Operation) :
    lossHistory type (operations ++ [operation]) = lossHistory type operations ++
      match operation.observed? type with
      | none => []
      | some (now, packetId) =>
        let tracker := LossTracker.observeAll {}
          ((operations.filterMap (Operation.observed? type)).map Prod.snd)
        let delta := tracker.delta (tracker.observe packetId)
        [{ time := now, expected := delta.expected, lost := delta.lost }] := by
  unfold lossHistory
  cases hobserved : operation.observed? type with
  | none => simp [List.filterMap_append, hobserved]
  | some entry =>
    obtain ⟨now, packetId⟩ := entry
    simp only [List.filterMap_append, List.filterMap_cons, hobserved, List.filterMap_nil,
      List.map_append, List.map_cons, List.map_nil, LossTracker.deltas_append,
      LossTracker.observeAll_append]
    rw [List.zipWith_append (by simp [LossTracker.length_deltas])]
    rfl

/-- The windows and the trackers after some calls. -/
structure Keeps (operations : List Operation) (last : TimePoint)
    (statistics : ConnectionStatistics) : Prop where
  sent : ∀ trafficClass, RetainsTraffic last (statistics.sentWindows trafficClass)
    (operations.filterMap (Operation.sent? trafficClass))
  received : ∀ trafficClass, RetainsTraffic last (statistics.receivedWindows trafficClass)
    (operations.filterMap (Operation.received? trafficClass))
  loss : ∀ type, RetainsLoss last (statistics.lossWindows type) (lossHistory type operations)
  tracker : ∀ type, statistics.loss type =
    LossTracker.observeAll {} ((operations.filterMap (Operation.observed? type)).map Prod.snd)

theorem keeps_reset (startedAt last : TimePoint) : Keeps [] last (reset startedAt) where
  sent _ := TimeWindow.retains_self []
  received _ := TimeWindow.retains_self []
  loss _ := TimeWindow.retains_self []
  tracker _ := rfl

section Step

variable {operations : List Operation} {last now : TimePoint} {statistics : ConnectionStatistics}

theorem Keeps.later (h : Keeps operations last statistics) (hle : last ≤ now) :
    Keeps operations now statistics where
  sent trafficClass := TimeWindow.Retains.later (h.sent trafficClass) hle
  received trafficClass := TimeWindow.Retains.later (h.received trafficClass) hle
  loss type := TimeWindow.Retains.later (h.loss type) hle
  tracker := h.tracker

/-- What a call adds to the samples, if it adds one. -/
theorem filterMap_append_singleton {α β : Type*} (f : α → Option β) (l : List α) (a : α) :
    (l ++ [a]).filterMap f = l.filterMap f ++ (f a).toList := by
  cases h : f a <;> simp [h]

theorem sentWindows_recordSent (type : PacketType) (packetBytes : ℕ) (trafficClass : TrafficClass) :
    (statistics.recordSent type packetBytes now).sentWindows trafficClass =
      if classify type = some trafficClass then
        addTraffic now packetBytes (statistics.sentWindows trafficClass)
      else statistics.sentWindows trafficClass := by
  unfold recordSent
  cases classify type with
  | none => rfl
  | some class' =>
    by_cases heq : class' = trafficClass
    · simp [heq]
    · simp [heq, Function.update_of_ne (Ne.symm heq)]

/-- `RecordSent` touches nothing that is received. -/
theorem recordSent_received (statistics : ConnectionStatistics) (now : TimePoint) (type : PacketType)
    (packetBytes : ℕ) :
    (statistics.recordSent type packetBytes now).receivedWindows = statistics.receivedWindows ∧
      (statistics.recordSent type packetBytes now).loss = statistics.loss ∧
      (statistics.recordSent type packetBytes now).lossWindows = statistics.lossWindows := by
  unfold recordSent
  cases classify type <;> exact ⟨rfl, rfl, rfl⟩

theorem sentWindows_recordReceived (type : PacketType) (packetId : UInt16) (packetBytes : ℕ) :
    (statistics.recordReceived type packetId packetBytes now).sentWindows =
      statistics.sentWindows := by
  unfold recordReceived
  cases classify type with
  | none => rfl
  | some class' =>
    dsimp only
    split_ifs <;> rfl

theorem receivedWindows_recordReceived (type : PacketType) (packetId : UInt16) (packetBytes : ℕ)
    (trafficClass : TrafficClass) :
    (statistics.recordReceived type packetId packetBytes now).receivedWindows trafficClass =
      if classify type = some trafficClass then
        addTraffic now packetBytes (statistics.receivedWindows trafficClass)
      else statistics.receivedWindows trafficClass := by
  unfold recordReceived
  cases classify type with
  | none => rfl
  | some class' =>
    by_cases heq : class' = trafficClass
    · rw [if_pos (congrArg some heq), heq]
      dsimp only
      split_ifs <;> simp
    · rw [if_neg fun hsame => heq (Option.some.inj hsame)]
      dsimp only
      split_ifs <;> simp [Function.update_of_ne (Ne.symm heq)]

/-- A tracked type is counted. -/
theorem classify_ne_none {type : PacketType} (h : tracksIncomingLoss type = true) :
    classify type ≠ none := by
  cases type <;> simp [classify, tracksIncomingLoss] at h ⊢

/-- The tracker of the type sees the packet, and its window what that changed. -/
theorem loss_recordReceived (statistics : ConnectionStatistics) (now : TimePoint)
    (type other : PacketType) (packetId : UInt16) (packetBytes : ℕ) :
    let statistics' := statistics.recordReceived type packetId packetBytes now
    if type = other ∧ tracksIncomingLoss other = true then
      statistics'.loss other = (statistics.loss other).observe packetId ∧
        statistics'.lossWindows other = addLoss now
          ((statistics.loss other).delta ((statistics.loss other).observe packetId))
          (statistics.lossWindows other)
    else
      statistics'.loss other = statistics.loss other ∧
        statistics'.lossWindows other = statistics.lossWindows other := by
  dsimp only
  unfold recordReceived
  cases hclass : classify type with
  | none =>
    rw [if_neg]
    · exact ⟨rfl, rfl⟩
    · rintro ⟨rfl, htracks⟩
      exact classify_ne_none htracks hclass
  | some class' =>
    dsimp only
    by_cases htracks : tracksIncomingLoss type = true
    · rw [if_pos htracks]
      by_cases heq : type = other
      · subst heq
        simp [htracks]
      · rw [if_neg fun h => heq h.1]
        simp [Function.update_of_ne (Ne.symm heq)]
    · rw [if_neg htracks, if_neg]
      · exact ⟨rfl, rfl⟩
      · rintro ⟨rfl, htracks'⟩
        exact htracks htracks'

/-- A class window that adds the sample of a call. -/
theorem RetainsTraffic.append_ite {window samples : List TrafficSample}
    (h : RetainsTraffic last window samples) (hle : last ≤ now) (packetBytes : ℕ) (p : Prop)
    [Decidable p] :
    RetainsTraffic now (if p then addTraffic now packetBytes window else window)
      (samples ++ (if p then some { time := now, bytes := packetBytes } else none : Option _).toList) := by
  split_ifs
  · exact h.add hle packetBytes
  · rw [Option.toList_none, List.append_nil]
    exact TimeWindow.Retains.later h hle

theorem Keeps.recordSent (h : Keeps operations last statistics) (type : PacketType)
    (packetBytes : ℕ) (hle : last ≤ now) :
    Keeps (operations ++ [.recordSent type packetBytes now]) now
      (statistics.recordSent type packetBytes now) := by
  have hlater := h.later hle
  obtain ⟨hreceived, htracker, hloss⟩ :=
    recordSent_received statistics now type packetBytes
  refine ⟨fun trafficClass => ?_, fun trafficClass => ?_, fun other => ?_, fun other => ?_⟩
  · rw [filterMap_append_singleton, sentWindows_recordSent]
    exact (h.sent trafficClass).append_ite hle packetBytes _
  · rw [filterMap_append_singleton, hreceived]
    simpa [Operation.received?] using hlater.received trafficClass
  · rw [lossHistory_append, hloss]
    simpa [Operation.observed?] using hlater.loss other
  · rw [filterMap_append_singleton, htracker]
    simpa [Operation.observed?] using h.tracker other

theorem Keeps.recordReceived (h : Keeps operations last statistics) (type : PacketType)
    (packetId : UInt16) (packetBytes : ℕ) (hle : last ≤ now) :
    Keeps (operations ++ [.recordReceived type packetId packetBytes now]) now
      (statistics.recordReceived type packetId packetBytes now) := by
  have hlater := h.later hle
  have hobserved : ∀ other, Operation.observed? other (.recordReceived type packetId packetBytes now) =
      if type = other ∧ tracksIncomingLoss other = true then some (now, packetId) else none :=
    fun _ => rfl
  refine ⟨fun trafficClass => ?_, fun trafficClass => ?_, fun other => ?_, fun other => ?_⟩
  · rw [filterMap_append_singleton, sentWindows_recordReceived]
    simpa [Operation.sent?] using hlater.sent trafficClass
  · rw [filterMap_append_singleton, receivedWindows_recordReceived]
    exact (h.received trafficClass).append_ite hle packetBytes _
  · have hspec := loss_recordReceived statistics now type other packetId packetBytes
    rw [lossHistory_append, hobserved]
    by_cases htracks : type = other ∧ tracksIncomingLoss other = true
    · rw [if_pos htracks] at hspec ⊢
      rw [hspec.2, ← h.tracker other]
      exact (h.loss other).add hle _
    · rw [if_neg htracks] at hspec ⊢
      rw [hspec.2]
      simpa using hlater.loss other
  · have hspec := loss_recordReceived statistics now type other packetId packetBytes
    rw [filterMap_append_singleton, hobserved]
    by_cases htracks : type = other ∧ tracksIncomingLoss other = true
    · rw [if_pos htracks] at hspec ⊢
      rw [hspec.1, h.tracker other, List.map_append]
      exact (LossTracker.observeAll_append _ _ _).symm
    · rw [if_neg htracks] at hspec ⊢
      rw [hspec.1]
      simpa using h.tracker other

/-- **One call.** -/
theorem Keeps.step (h : Keeps operations last statistics) (operation : Operation)
    (hle : last ≤ operation.time) :
    Keeps (operations ++ [operation]) operation.time (statistics.step operation) := by
  cases operation with
  | recordSent type packetBytes now => exact h.recordSent type packetBytes hle
  | recordReceived type packetId packetBytes now =>
    exact h.recordReceived type packetId packetBytes hle
  | getSnapshot now =>
    obtain ⟨hsent, hreceived, hloss, htracker⟩ := h.later hle
    refine ⟨fun trafficClass => ?_, fun trafficClass => ?_, fun other => ?_, fun other => ?_⟩
    · rw [filterMap_append_singleton]
      show RetainsTraffic now (statistics.sentWindows trafficClass) (_ ++ [])
      rw [List.append_nil]
      exact hsent trafficClass
    · rw [filterMap_append_singleton]
      show RetainsTraffic now (statistics.receivedWindows trafficClass) (_ ++ [])
      rw [List.append_nil]
      exact hreceived trafficClass
    · rw [lossHistory_append]
      show RetainsLoss now (statistics.lossWindows other) (_ ++ [])
      rw [List.append_nil]
      exact hloss other
    · rw [filterMap_append_singleton]
      show statistics.loss other = LossTracker.observeAll {} ((_ ++ []).map Prod.snd)
      rw [List.append_nil]
      exact htracker other

/-- After some calls at nondecreasing times. -/
theorem keeps_run (startedAt : TimePoint) (operations : List Operation) (now : TimePoint)
    (hsorted : (operations.map Operation.time ++ [now]).Pairwise (· ≤ ·)) :
    Keeps operations now (operations.foldl ConnectionStatistics.step (reset startedAt)) := by
  induction operations using List.reverseRecOn generalizing now with
  | nil => exact keeps_reset startedAt now
  | append_singleton operations operation ih =>
    rw [List.map_append, List.map_singleton] at hsorted
    obtain ⟨hbefore, -, hlast⟩ := List.pairwise_append.1 hsorted
    have hle : operation.time ≤ now := hlast _ (by simp) _ (by simp)
    rw [List.foldl_append]
    exact ((ih operation.time hbefore).step operation le_rfl).later hle

end Step

/-- **Pruning changes no snapshot.** After any calls at nondecreasing times, the totals of the
windows, and with them the snapshot, are those of all samples since `Reset`; and what is lost, by
class and in total, is a part of what was expected. -/
theorem snapshot_unpruned (startedAt : TimePoint) (operations : List Operation) (now : TimePoint)
    (hsorted : (operations.map Operation.time ++ [now]).Pairwise (· ≤ ·)) :
    let statistics := operations.foldl step (reset startedAt)
    (∀ type, totals now (seconds 1) (statistics.lossWindows type) =
      totals now (seconds 1) (lossHistory type operations)) ∧
    (∀ trafficClass, ∀ window ∈ [seconds 1, seconds 60],
      rate now startedAt window (statistics.sentWindows trafficClass) =
        rate now startedAt window (operations.filterMap (Operation.sent? trafficClass)) ∧
      rate now startedAt window (statistics.receivedWindows trafficClass) =
        rate now startedAt window (operations.filterMap (Operation.received? trafficClass))) ∧
    getSnapshot now statistics = getSnapshot now (fullHistory operations statistics) ∧
    (∀ trafficClass, ((getSnapshot now statistics).packetLoss trafficClass).1 ≤
      ((getSnapshot now statistics).packetLoss trafficClass).2) ∧
    (getSnapshot now statistics).packetLossTotal.1 ≤
      (getSnapshot now statistics).packetLossTotal.2 := by
  intro statistics
  have h : Keeps operations now statistics := keeps_run startedAt operations now hsorted
  have htotals : ∀ type, totals now (seconds 1) (statistics.lossWindows type) =
      totals now (seconds 1) (lossHistory type operations) := fun type =>
    (h.loss type).totals_eq (by decide)
  refine ⟨htotals, fun trafficClass window hwindow => ?_, ?_, fun trafficClass => ?_, ?_⟩
  · have hlength : window ≤ seconds 60 := by
      rcases List.mem_pair.1 hwindow with rfl | rfl <;> decide
    exact ⟨(h.sent trafficClass).rate_eq startedAt hlength,
      (h.received trafficClass).rate_eq startedAt hlength⟩
  · have hloss : ∀ trafficClass, statistics.lossTotals trafficClass now =
        (fullHistory operations statistics).lossTotals trafficClass now := fun trafficClass => by
      unfold lossTotals
      simp only [htotals]
      rfl
    unfold getSnapshot
    simp only [hloss, (h.sent _).bandwidth_eq, (h.received _).bandwidth_eq]
    rfl
  · exact lossTotals_le trafficClass now statistics
  · exact Nat.add_le_add (Nat.add_le_add (lossTotals_le .speech now statistics)
      (lossTotals_le .keepalive now statistics)) (lossTotals_le .control now statistics)

/-- Two packets that were missing come in within the last second: the loss does not go below
nothing. -/
theorem snapshot_unpruned_healed :
    let operations : List Operation :=
      [.recordReceived .ping 1 50 0, .recordReceived .ping 4 50 0, .getSnapshot (seconds 1),
        .recordReceived .ping 2 50 (seconds 3), .recordReceived .ping 3 50 (seconds 3),
        .recordReceived .ping 5 50 (seconds 3)]
    let statistics := operations.foldl step (reset 0)
    (operations.map Operation.time ++ [seconds 3]).Pairwise (· ≤ ·) ∧
      totals (seconds 3) (seconds 1) (statistics.lossWindows .ping) = (0, 1) := by
  intro operations statistics
  have hsorted : (operations.map Operation.time ++ [seconds 3]).Pairwise (· ≤ ·) := by decide
  exact ⟨hsorted, ((snapshot_unpruned 0 operations (seconds 3) hsorted).1 .ping).trans (by decide)⟩

end ConnectionStatistics

end TsCli
