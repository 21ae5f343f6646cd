import TsCli.Basic

/-!
# The delivery of the runtime's events

The network thread pushes its events to a queue that it closes behind the last one, and the front
end takes them from there. Each call holds the lock of the queue, so the threads interleave call by
call.

Both front ends take events until there is none, and then look whether the queue was closed. The
graphical one takes the rest before it leaves, and has then shown every event (`window_complete`).
The terminal one leaves at once, and misses the events that were pushed between its last two calls
(`terminal_misses`); one of them may be the last one, the reason of the disconnect.
-/

namespace TsCli

/-- `EventQueue`. -/
structure EventQueue (α : Type) where
  events : List α := []
  closed : Bool := false
  deriving DecidableEq

namespace EventQueue

variable {α : Type}

/-- `EventQueue::Push`. -/
def push (q : EventQueue α) (event : α) : EventQueue α :=
  if q.closed then q else { q with events := q.events ++ [event] }

/-- `EventQueue::WaitPop` without a timeout. -/
def waitPop (q : EventQueue α) : Option (α × EventQueue α) :=
  match q.events with
  | [] => none
  | event :: events => some (event, { q with events })

/-- `EventQueue::Close`. -/
def close (q : EventQueue α) : EventQueue α := { q with closed := true }

end EventQueue

/-- The next call of a front end. -/
inductive FrontEndPhase
  /-- `WaitPop`. -/
  | draining
  /-- `Closed`, when there was no event. -/
  | checking
  /-- `WaitPop` again, when the queue was closed. -/
  | lastDraining
  | finished
  deriving DecidableEq

/-- The network thread with a front end. -/
structure EventDelivery (α : Type) where
  queue : EventQueue α := {}
  /-- What the network thread has still to push. -/
  remaining : List α
  shown : List α := []
  phase : FrontEndPhase := .draining
  deriving DecidableEq

namespace EventDelivery

variable {α : Type}

/-- A call of the network thread: a push or, behind the last one, `Close`. -/
def networkStep (d : EventDelivery α) : EventDelivery α :=
  match d.remaining with
  | event :: remaining => { d with queue := d.queue.push event, remaining }
  | [] => { d with queue := d.queue.close }

/-- `WaitPop` in a loop that goes on with `next` when there is no event. -/
def take (next : FrontEndPhase) (d : EventDelivery α) : EventDelivery α :=
  match d.queue.waitPop with
  | some (event, queue) => { d with queue, shown := d.shown ++ [event] }
  | none => { d with phase := next }

/-- A call of a front end that goes on with `next` when the queue was closed. -/
def frontEndStep (next : FrontEndPhase) (d : EventDelivery α) : EventDelivery α :=
  match d.phase with
  | .draining => d.take .checking
  | .checking => { d with phase := if d.queue.closed then next else .draining }
  | .lastDraining => d.take .finished
  | .finished => d

/-- The loop of `main`. -/
def terminalStep : EventDelivery α → EventDelivery α := frontEndStep .finished

/-- `MainWindow::PollSession`. -/
def windowStep : EventDelivery α → EventDelivery α := frontEndStep .lastDraining

/-- The thread that makes the next call. -/
inductive Thread
  | network
  | frontEnd
  deriving DecidableEq

/-- A call of one of the threads. -/
def step (frontEnd : EventDelivery α → EventDelivery α) (d : EventDelivery α) :
    Thread → EventDelivery α
  | .network => d.networkStep
  | .frontEnd => frontEnd d

/-- The calls of both threads, in some order. -/
def run (frontEnd : EventDelivery α → EventDelivery α) (events : List α) (calls : List Thread) :
    EventDelivery α :=
  calls.foldl (step frontEnd) { remaining := events }

/-! ## Nothing is lost on the way -/

/-- What holds whatever the front end does behind the closed queue. -/
structure Sound (events : List α) (d : EventDelivery α) : Prop where
  all : d.shown ++ d.queue.events ++ d.remaining = events
  closed : d.queue.closed = true → d.remaining = []
  last : d.phase = .lastDraining → d.queue.closed = true
  finished : d.phase = .finished → d.queue.closed = true

theorem sound_start (events : List α) : Sound events { remaining := events } :=
  ⟨rfl, nofun, nofun, nofun⟩

theorem sound_networkStep {events : List α} {d : EventDelivery α} (h : Sound events d) :
    Sound events d.networkStep := by
  unfold networkStep
  cases hremaining : d.remaining with
  | nil =>
    refine ⟨?_, fun _ => rfl, fun _ => rfl, fun _ => rfl⟩
    have hall := h.all
    rw [hremaining] at hall
    exact hall
  | cons event remaining =>
    have hopen : d.queue.closed = false := by
      cases hclosed : d.queue.closed with
      | false => rfl
      | true =>
        have hnone := h.closed hclosed
        rw [hremaining] at hnone
        cases hnone
    have hpush : d.queue.push event = { d.queue with events := d.queue.events ++ [event] } :=
      if_neg (Bool.not_eq_true _ ▸ hopen)
    dsimp only
    rw [hpush]
    refine ⟨?_, ?_, ?_, ?_⟩
    · have hall := h.all
      rw [hremaining] at hall
      simpa using hall
    · intro hclosed
      exact absurd (hopen.symm.trans hclosed) Bool.false_ne_true
    · intro hphase
      exact absurd (hopen.symm.trans (h.last hphase)) Bool.false_ne_true
    · intro hphase
      exact absurd (hopen.symm.trans (h.finished hphase)) Bool.false_ne_true

/-- `WaitPop` moves the first event, or leaves all of them. -/
theorem take_cases (next : FrontEndPhase) (d : EventDelivery α) :
    (∃ event events, d.queue.events = event :: events ∧
      d.take next = { d with queue := { d.queue with events }, shown := d.shown ++ [event] }) ∨
    (d.queue.events = [] ∧ d.take next = { d with phase := next }) := by
  unfold take EventQueue.waitPop
  cases hevents : d.queue.events with
  | nil => exact .inr ⟨rfl, rfl⟩
  | cons event events => exact .inl ⟨event, events, rfl, rfl⟩

theorem sound_take {events : List α} {next : FrontEndPhase} {d : EventDelivery α}
    (h : Sound events d) (hnext : next = .checking ∨ d.queue.closed = true) :
    Sound events (d.take next) := by
  rcases d.take_cases next with ⟨event, rest, hevents, htake⟩ | ⟨-, htake⟩
  · rw [htake]
    refine ⟨?_, h.closed, h.last, h.finished⟩
    have hall := h.all
    rw [hevents] at hall
    simpa using hall
  · rw [htake]
    refine ⟨h.all, h.closed, ?_, ?_⟩
    · rintro rfl
      exact hnext.resolve_left nofun
    · rintro rfl
      exact hnext.resolve_left nofun

theorem sound_frontEndStep {events : List α} {next : FrontEndPhase} {d : EventDelivery α}
    (h : Sound events d) : Sound events (frontEndStep next d) := by
  unfold frontEndStep
  cases hphase : d.phase with
  | draining => exact sound_take h (.inl rfl)
  | lastDraining => exact sound_take h (.inr (h.last hphase))
  | finished => exact h
  | checking =>
    refine ⟨h.all, h.closed, ?_, ?_⟩
    · intro hlast
      by_contra hopen
      rw [Bool.not_eq_true] at hopen
      dsimp only at hlast
      rw [hopen] at hlast
      cases hlast
    · intro hfinished
      by_contra hopen
      rw [Bool.not_eq_true] at hopen
      dsimp only at hfinished
      rw [hopen] at hfinished
      cases hfinished

theorem sound_run (next : FrontEndPhase) (events : List α) (calls : List Thread) :
    Sound events (run (frontEndStep next) events calls) := by
  unfold run
  induction calls using List.reverseRecOn with
  | nil => exact sound_start events
  | append_singleton calls call ih =>
    rw [List.foldl_append]
    cases call with
    | network => exact sound_networkStep ih
    | frontEnd => exact sound_frontEndStep ih

/-! ## The graphical front end -/

/-- The graphical front end leaves an empty queue behind. -/
theorem windowStep_finished {d : EventDelivery α}
    (h : d.phase = .finished → d.queue.events = []) :
    (windowStep d).phase = .finished → (windowStep d).queue.events = [] := by
  unfold windowStep frontEndStep
  cases hphase : d.phase with
  | draining =>
    dsimp only
    rcases d.take_cases .checking with ⟨event, rest, -, htake⟩ | ⟨-, htake⟩
    · rw [htake]
      dsimp only
      rw [hphase]
      nofun
    · rw [htake]
      nofun
  | checking =>
    dsimp only
    split
    · nofun
    · nofun
  | lastDraining =>
    dsimp only
    rcases d.take_cases .finished with ⟨event, rest, -, htake⟩ | ⟨hevents, htake⟩
    · rw [htake]
      dsimp only
      rw [hphase]
      nofun
    · rw [htake]
      intro _
      exact hevents
  | finished =>
    intro _
    exact h hphase

theorem window_empty (events : List α) (calls : List Thread) :
    (run windowStep events calls).phase = .finished →
      (run windowStep events calls).queue.events = [] := by
  unfold run
  induction calls using List.reverseRecOn with
  | nil => nofun
  | append_singleton calls call ih =>
    rw [List.foldl_append]
    cases call with
    | frontEnd => exact windowStep_finished ih
    | network =>
      have hsound : Sound events (calls.foldl (step windowStep) { remaining := events }) :=
        sound_run .lastDraining events calls
      intro hfinished
      have hphase : (calls.foldl (step windowStep) { remaining := events }).phase = .finished := by
        revert hfinished
        show (networkStep _).phase = _ → _
        unfold networkStep
        split
        · exact id
        · exact id
      have hnone := hsound.closed (hsound.finished hphase)
      show (networkStep _).queue.events = []
      unfold networkStep
      rw [hnone]
      exact ih hphase

/-- The calls that the graphical front end still needs, once the queue is closed. -/
def callsLeft (d : EventDelivery α) : ℕ :=
  match d.phase with
  | .draining => d.queue.events.length + 3
  | .checking => d.queue.events.length + 2
  | .lastDraining => d.queue.events.length + 1
  | .finished => 0

theorem callsLeft_eq_zero {d : EventDelivery α} (h : callsLeft d = 0) : d.phase = .finished := by
  unfold callsLeft at h
  cases hphase : d.phase with
  | finished => rfl
  | draining | checking | lastDraining =>
    rw [hphase] at h
    cases h

theorem callsLeft_windowStep {d : EventDelivery α} (hclosed : d.queue.closed = true) :
    callsLeft (windowStep d) ≤ callsLeft d - 1 ∧ (windowStep d).queue.closed = true := by
  unfold windowStep frontEndStep
  cases hphase : d.phase with
  | draining =>
    dsimp only
    rcases d.take_cases .checking with ⟨event, rest, hevents, htake⟩ | ⟨hevents, htake⟩
    · rw [htake]
      simp [callsLeft, hphase, hevents, hclosed]
    · rw [htake]
      simp [callsLeft, hphase, hevents, hclosed]
  | checking => simp [callsLeft, hphase, hclosed]
  | lastDraining =>
    dsimp only
    rcases d.take_cases .finished with ⟨event, rest, hevents, htake⟩ | ⟨hevents, htake⟩
    · rw [htake]
      simp [callsLeft, hphase, hevents, hclosed]
    · rw [htake]
      simp [callsLeft, hclosed]
  | finished => simp [callsLeft, hphase, hclosed]

/-- Behind the closed queue, the graphical front end comes to its end. -/
theorem windowStep_finishes {count : ℕ} {d : EventDelivery α} (hclosed : d.queue.closed = true)
    (hcount : callsLeft d ≤ count) :
    ((List.replicate count Thread.frontEnd).foldl (step windowStep) d).phase = .finished := by
  induction count generalizing d with
  | zero => exact callsLeft_eq_zero (Nat.le_zero.1 hcount)
  | succ count ih =>
    obtain ⟨hless, hclosed'⟩ := callsLeft_windowStep hclosed
    exact ih hclosed' (hless.trans (Nat.sub_le_of_le_add hcount))

/-- **The graphical front end shows every event**, in the order in which they were pushed, however
its calls and those of the network thread interleave; and once the queue is closed, it comes to its
end by its own calls. -/
theorem window_complete (events : List α) (calls : List Thread) :
    ((run windowStep events calls).phase = .finished →
      (run windowStep events calls).shown = events) ∧
    ((run windowStep events calls).queue.closed = true →
      (run windowStep events
        (calls ++ List.replicate (events.length + 3) .frontEnd)).phase = .finished) := by
  have hsound : Sound events (run windowStep events calls) := sound_run .lastDraining events calls
  have hall := hsound.all
  constructor
  · intro hfinished
    rw [window_empty events calls hfinished, hsound.closed (hsound.finished hfinished),
      List.append_nil, List.append_nil] at hall
    exact hall
  · intro hclosed
    have hlength := congrArg List.length hall
    simp only [List.length_append] at hlength
    have hleft : callsLeft (run windowStep events calls) ≤ events.length + 3 := by
      unfold callsLeft
      split
      all_goals omega
    unfold run at hclosed hleft ⊢
    rw [List.foldl_append]
    exact windowStep_finishes hclosed hleft

/-! ## The terminal -/

/-- The events that were pushed since the terminal last found none. -/
def lateStep (d : EventDelivery α) (late : List α) : Thread → List α
  | .frontEnd => if d.phase = .draining then [] else late
  | .network =>
    if d.phase = .checking then
      match d.remaining with
      | event :: _ => late ++ [event]
      | [] => late
    else late

/-- The delivery to the terminal, with these events. -/
def lateRun (events : List α) (calls : List Thread) : EventDelivery α × List α :=
  calls.foldl (fun (s : EventDelivery α × List α) call =>
    (step terminalStep s.1 call, lateStep s.1 s.2 call)) ({ remaining := events }, [])

/-- The events that the terminal misses: those pushed between its last two calls. -/
def late (events : List α) (calls : List Thread) : List α := (lateRun events calls).2

theorem lateRun_fst (events : List α) (calls : List Thread) :
    (lateRun events calls).1 = run terminalStep events calls := by
  unfold lateRun run
  induction calls using List.reverseRecOn with
  | nil => rfl
  | append_singleton calls call ih =>
    rw [List.foldl_append, List.foldl_append]
    exact congrArg (step terminalStep · call) ih

/-- Behind its last `WaitPop`, what waits for the terminal is what came late. -/
def LateWaits (d : EventDelivery α) (late : List α) : Prop :=
  d.phase ≠ .draining → d.phase ≠ .lastDraining ∧ d.queue.events = late

theorem lateWaits_networkStep {events : List α} {d : EventDelivery α} {late : List α}
    (hsound : Sound events d) (h : LateWaits d late) :
    LateWaits d.networkStep (lateStep d late .network) := by
  unfold networkStep lateStep
  cases hremaining : d.remaining with
  | nil =>
    dsimp only
    rw [ite_self]
    exact h
  | cons event remaining =>
    intro hphase
    dsimp only at hphase ⊢
    obtain ⟨hlast, hwaits⟩ := h hphase
    have hopen : ¬ d.queue.closed = true := by
      intro hclosed
      have hnone := hsound.closed hclosed
      rw [hremaining] at hnone
      cases hnone
    have hchecking : d.phase = .checking := by
      cases hcase : d.phase with
      | checking => rfl
      | draining => exact absurd hcase hphase
      | lastDraining => exact absurd hcase hlast
      | finished => exact absurd (hsound.finished hcase) hopen
    refine ⟨hlast, ?_⟩
    rw [if_pos hchecking]
    unfold EventQueue.push
    rw [if_neg hopen, hwaits]

theorem lateWaits_terminalStep {d : EventDelivery α} {late : List α} (h : LateWaits d late) :
    LateWaits (terminalStep d) (lateStep d late .frontEnd) := by
  unfold terminalStep frontEndStep lateStep
  cases hphase : d.phase with
  | draining =>
    dsimp only
    rw [if_pos rfl]
    rcases d.take_cases .checking with ⟨event, rest, -, htake⟩ | ⟨hevents, htake⟩
    · rw [htake]
      intro hne
      exact absurd hphase hne
    · rw [htake]
      intro _
      exact ⟨nofun, hevents⟩
  | checking =>
    have hne : d.phase ≠ .draining := by
      rw [hphase]
      nofun
    have hchecking : FrontEndPhase.checking ≠ .draining := nofun
    dsimp only
    rw [if_neg hchecking]
    intro hnext
    refine ⟨?_, (h hne).2⟩
    dsimp only
    split_ifs
    · nofun
    · nofun
  | lastDraining =>
    have hne : d.phase ≠ .draining := by
      rw [hphase]
      nofun
    exact absurd hphase (h hne).1
  | finished =>
    have hfinished : FrontEndPhase.finished ≠ .draining := nofun
    dsimp only
    rw [if_neg hfinished]
    exact h

theorem lateWaits_lateRun (events : List α) (calls : List Thread) :
    LateWaits (lateRun events calls).1 (lateRun events calls).2 := by
  induction calls using List.reverseRecOn with
  | nil =>
    intro hphase
    exact absurd rfl hphase
  | append_singleton calls call ih =>
    have hsound : Sound events (lateRun events calls).1 := by
      rw [lateRun_fst]
      exact sound_run .finished events calls
    unfold lateRun at ih hsound ⊢
    rw [List.foldl_append]
    cases call with
    | network => exact lateWaits_networkStep hsound ih
    | frontEnd => exact lateWaits_terminalStep ih

/-- Each event is pushed and shown at once. -/
def alternate : List α → List Thread
  | [] => []
  | _ :: events => .network :: .frontEnd :: alternate events

theorem foldl_alternate (events rest shown : List α) :
    (alternate events).foldl (step terminalStep) { remaining := events ++ rest, shown } =
      { remaining := rest, shown := shown ++ events } := by
  induction events generalizing shown with
  | nil =>
    rw [List.append_nil]
    rfl
  | cons event events ih =>
    have hpair : step terminalStep (step terminalStep
        { remaining := event :: events ++ rest, shown } .network) .frontEnd =
        { remaining := events ++ rest, shown := shown ++ [event] } := rfl
    show (alternate events).foldl _ (step terminalStep (step terminalStep _ .network) .frontEnd) = _
    rw [hpair, ih, List.append_assoc]
    rfl

/-- **What the terminal misses**: the events that were pushed between its last `WaitPop` and the
`Closed` that ended it, and no other ones. Whatever the events are, there is an order of the calls
in which it ends without the last one. -/
theorem terminal_misses (events : List α) :
    (∀ calls, (run terminalStep events calls).phase = .finished →
      (run terminalStep events calls).shown ++ late events calls = events) ∧
    ∃ calls, (run terminalStep events calls).phase = .finished ∧
      (run terminalStep events calls).shown = events.dropLast := by
  constructor
  · intro calls hfinished
    have hsound : Sound events (run terminalStep events calls) := sound_run .finished events calls
    have hwaits := lateWaits_lateRun events calls
    rw [lateRun_fst] at hwaits
    have hall := hsound.all
    have hne : (run terminalStep events calls).phase ≠ .draining := by
      rw [hfinished]
      nofun
    rw [(hwaits hne).2, hsound.closed (hsound.finished hfinished), List.append_nil] at hall
    exact hall
  · rcases List.eq_nil_or_concat' events with rfl | ⟨front, last, rfl⟩
    · exact ⟨[.frontEnd, .network, .frontEnd], rfl, rfl⟩
    · have hrun : run terminalStep (front ++ [last])
          (alternate front ++ [.frontEnd, .network, .network, .frontEnd]) =
          { queue := { events := [last], closed := true }, remaining := [], shown := front,
            phase := .finished } := by
        unfold run
        rw [List.foldl_append, foldl_alternate, List.nil_append]
        rfl
      refine ⟨_, congrArg phase hrun, ?_⟩
      rw [congrArg shown hrun, List.dropLast_concat]

end EventDelivery

end TsCli
