import Mathlib.Tactic

/-!
# Probing a silent peer

One side probes the other when it has heard nothing for an interval. A probe is outstanding until it
is answered, until something else is heard behind it, or until an interval has passed, when the next
probe may replace it or may fail to go out. Times do not decrease. Then the probes are an interval
apart (`Good.spaced`), the outstanding one is the last one, and none is measured twice
(`Good.measured`): while nothing is outstanding, each probe is older than what was heard last, or
older than an interval.
-/

variable {T : Type*}

/-- A side that probes. `probes` and `measured` are what it has done: the times of the probes, and
of those that were answered. -/
structure Prober (T : Type*) where
  active : Bool := false
  heard : T
  outstanding : Option T := none
  probes : List T := []
  measured : List T := []

namespace Prober

section Step

variable [AddCommGroup T] [LinearOrder T]

/-- What a side may do at a time. -/
inductive Step (interval now : T) : Prober T → Prober T → Prop
  | idle (s : Prober T) : Step interval now s s
  /-- Probing starts. -/
  | start {s : Prober T} (h : s.active = false) :
      Step interval now s { s with active := true, heard := now, outstanding := none }
  /-- Something is heard. -/
  | hear {s : Prober T} (h : s.active = true) : Step interval now s { s with heard := now }
  /-- The outstanding probe is answered. -/
  | answer {s : Prober T} {sent : T} (h : s.outstanding = some sent) : Step interval now s
      { s with heard := now, outstanding := none, measured := s.measured ++ [sent] }
  /-- Something was heard behind the outstanding probe. -/
  | retire {s : Prober T} {sent : T} (h : s.outstanding = some sent) (hheard : sent < s.heard) :
      Step interval now s { s with outstanding := none }
  /-- A probe does not go out in place of the outstanding one. -/
  | fail {s : Prober T} {sent : T} (h : s.outstanding = some sent) (hold : sent + interval ≤ now) :
      Step interval now s { s with outstanding := none }
  /-- A probe goes out, in place of the outstanding one or after silence. -/
  | probe {s : Prober T} (h : s.active = true)
      (hold : ∀ sent ∈ s.outstanding, sent + interval ≤ now)
      (hsilent : s.outstanding = none → s.heard + interval ≤ now) :
      Step interval now s { s with outstanding := some now, probes := s.probes ++ [now] }

/-- What holds of a side at a time. -/
structure Good (interval now : T) (s : Prober T) : Prop where
  spaced : s.probes.Pairwise fun a b => a + interval ≤ b
  past : ∀ time ∈ s.probes, time ≤ now
  last : ∀ sent ∈ s.outstanding, s.probes.getLast? = some sent
  free : s.outstanding = none → ∀ time ∈ s.probes, time ≤ s.heard ∨ time + interval ≤ now
  inactive : s.active = false → s.probes = []
  measured : (s.measured ++ s.outstanding.toList).Sublist s.probes

end Step

variable [AddCommGroup T] [LinearOrder T] {interval now : T} {s s' : Prober T}

theorem good_start (interval now heard : T) : Good interval now { heard } :=
  ⟨List.Pairwise.nil, nofun, nofun, fun _ => nofun, fun _ => rfl, List.Sublist.refl _⟩

/-- Time passes. -/
theorem Good.later (h : Good interval now s) {later : T} (hle : now ≤ later) :
    Good interval later s :=
  { h with
    past := fun time htime => (h.past time htime).trans hle
    free := fun hnone time htime => (h.free hnone time htime).imp_right fun hold => hold.trans hle }

/-- No probe is outstanding any more. -/
theorem Good.clear (h : Good interval now s)
    (hfree : ∀ time ∈ s.probes, time ≤ s.heard ∨ time + interval ≤ now) :
    Good interval now { s with outstanding := none } :=
  { h with
    last := nofun
    free := fun _ => hfree
    measured := by
      refine List.Sublist.trans ?_ h.measured
      show (s.measured ++ []).Sublist _
      exact (List.Sublist.refl _).append (List.nil_sublist _) }

/-- Something is heard, when probing has started. -/
theorem Good.hear (h : Good interval now s) : Good interval now { s with heard := now } :=
  { h with free := fun _ time htime => .inl (h.past time htime) }

section Ordered

variable [IsOrderedAddMonoid T]

/-- All probes are at most as late as the outstanding one. -/
theorem Good.le_of_outstanding (h : Good interval now s) (hinterval : 0 ≤ interval) {sent : T}
    (hsent : s.outstanding = some sent) {time : T} (htime : time ∈ s.probes) : time ≤ sent := by
  obtain ⟨front, hfront⟩ := List.getLast?_eq_some_iff.1 (h.last sent hsent)
  have hspaced := h.spaced
  rw [hfront] at hspaced htime
  rcases List.mem_append.1 htime with htime | htime
  · have hgap := (List.pairwise_append.1 hspaced).2.2 time htime sent List.mem_cons_self
    exact (le_add_of_nonneg_right hinterval).trans hgap
  · exact (List.mem_singleton.1 htime).le

/-- **A step keeps the invariant.** -/
theorem Good.step (h : Good interval now s) (hinterval : 0 ≤ interval)
    (hstep : Step interval now s s') : Good interval now s' := by
  cases hstep with
  | idle => exact h
  | start hinactive =>
    have hprobes := h.inactive hinactive
    have hclear := (h.clear fun time htime => by rw [hprobes] at htime; cases htime).hear
    exact { hclear with inactive := nofun }
  | hear => exact h.hear
  | @answer sent hsent =>
    have hclear := (h.hear.clear fun time htime => .inl (h.past time htime))
    refine { hclear with measured := ?_ }
    have hmeasured := h.measured
    rw [hsent] at hmeasured
    show (s.measured ++ [sent] ++ []).Sublist s.probes
    rwa [List.append_nil]
  | retire hsent hheard =>
    exact h.clear fun time htime => .inl ((h.le_of_outstanding hinterval hsent htime).trans hheard.le)
  | @fail sent hsent hold =>
    refine h.clear fun time htime => .inr ?_
    have hle := h.le_of_outstanding hinterval hsent htime
    exact (add_le_add_left hle interval).trans hold
  | probe hactive hold hsilent =>
    have hgap : ∀ time ∈ s.probes, time + interval ≤ now := by
      intro time htime
      cases hsent : s.outstanding with
      | none =>
        rcases h.free hsent time htime with hle | hle
        · exact (add_le_add_left hle interval).trans (hsilent hsent)
        · exact hle
      | some sent =>
        have hle := h.le_of_outstanding hinterval hsent htime
        exact (add_le_add_left hle interval).trans (hold sent hsent)
    refine ⟨?_, fun time htime => ?_, ?_, nofun, ?_, ?_⟩
    · refine List.pairwise_append.2 ⟨h.spaced, List.pairwise_singleton _ _, fun a ha b hb => ?_⟩
      rw [List.mem_singleton.1 hb]
      exact hgap a ha
    · rcases List.mem_append.1 htime with htime | htime
      · exact h.past time htime
      · exact (List.mem_singleton.1 htime).le
    · rintro sent ⟨⟩
      exact List.getLast?_concat
    · intro hinactive
      rw [hactive] at hinactive
      cases hinactive
    · have hfront : s.measured.Sublist s.probes :=
        (List.sublist_append_left _ _).trans h.measured
      exact hfront.append (List.Sublist.refl _)

end Ordered

end Prober

/-! ## Counting -/

/-- Times that are a gap apart are as many gaps from the first to the last, but one. -/
theorem nsmul_le_of_spaced {times : List ℤ} {gap low high : ℤ}
    (hspaced : times.Pairwise fun a b => a + gap ≤ b) (hrange : ∀ time ∈ times, low ≤ time ∧ time ≤ high)
    (hne : times ≠ []) : low + (times.length - 1 : ℤ) * gap ≤ high := by
  induction times generalizing low with
  | nil => exact absurd rfl hne
  | cons time times ih =>
    obtain ⟨hgap, hspaced⟩ := List.pairwise_cons.1 hspaced
    obtain ⟨htime, hrange⟩ := List.forall_mem_cons.1 hrange
    cases times with
    | nil => simpa using htime.1.trans htime.2
    | cons next rest =>
      have hnext : ∀ t ∈ next :: rest, time + gap ≤ t ∧ t ≤ high := fun t ht =>
        ⟨hgap t ht, (hrange t ht).2⟩
      have hrest := ih hspaced hnext (List.cons_ne_nil _ _)
      simp only [List.length_cons] at hrest ⊢
      push_cast at hrest ⊢
      linarith [htime.1]
