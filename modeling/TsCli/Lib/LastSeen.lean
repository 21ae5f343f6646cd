import Mathlib.Data.List.Sort
import Mathlib.Tactic

/-!
# Presence by last sign

A key is present from its first sign on, until it leaves or a sweep finds its last sign too old.
`lastSign` keeps that status along a log. When the times of the log do not decrease, what a sweep
leaves behind needs no history of sweeps: a key is present when its latest sign was no leave and is
younger than the timeout (`lastSign_swept`).
-/

namespace LastSeen

variable {κ : Type*} [DecidableEq κ]

/-- What a log of presence consists of. -/
inductive Mark (κ : Type*)
  | seen (key : κ) (time : ℤ)
  | left (key : κ) (time : ℤ)
  | swept (time : ℤ)
  deriving DecidableEq

def Mark.time : Mark κ → ℤ
  | .seen _ time => time
  | .left _ time => time
  | .swept time => time

/-- A sign of the key, or its leave: whether it stayed, and when. -/
def Mark.sign? (key : κ) : Mark κ → Option (Bool × ℤ)
  | .seen key' time => if key' = key then some (true, time) else none
  | .left key' time => if key' = key then some (false, time) else none
  | .swept _ => none

/-- The latest sign of a key. -/
def latest (log : List (Mark κ)) (key : κ) : Option (Bool × ℤ) :=
  (log.filterMap (Mark.sign? key)).getLast?

/-- The last sign of a present key. -/
def update (timeout : ℤ) (key : κ) (last : Option ℤ) : Mark κ → Option ℤ
  | .seen key' time => if key' = key then some time else last
  | .left key' _ => if key' = key then none else last
  | .swept time => last.filter fun sign => time - sign < timeout

def lastSign (timeout : ℤ) (log : List (Mark κ)) (key : κ) : Option ℤ :=
  log.foldl (update timeout key) none

/-- The key is present. -/
def Present (timeout : ℤ) (log : List (Mark κ)) (key : κ) : Prop :=
  lastSign timeout log key ≠ none

/-- The mark starts or ends the presence of a key. -/
inductive Changes (timeout : ℤ) (log : List (Mark κ)) : Mark κ → Prop
  | started {key : κ} (time : ℤ) (h : ¬ Present timeout log key) :
      Changes timeout log (.seen key time)
  | ended {key : κ} (time : ℤ) (h : Present timeout log key) : Changes timeout log (.left key time)
  | expired {key : κ} {sign : ℤ} {time : ℤ} (h : lastSign timeout log key = some sign)
      (hold : timeout ≤ time - sign) : Changes timeout log (.swept time)

section Steps

variable {timeout : ℤ} {log : List (Mark κ)} {key : κ}

theorem lastSign_concat (mark : Mark κ) :
    lastSign timeout (log ++ [mark]) key = update timeout key (lastSign timeout log key) mark := by
  unfold lastSign
  rw [List.foldl_append]
  rfl

theorem latest_concat (mark : Mark κ) :
    latest (log ++ [mark]) key = (mark.sign? key).or (latest log key) := by
  unfold latest
  rw [List.filterMap_append]
  cases h : mark.sign? key with
  | none => rw [List.filterMap_cons_none h, List.filterMap_nil, List.append_nil, Option.none_or]
  | some sign =>
    rw [List.filterMap_cons_some h, List.filterMap_nil, List.getLast?_concat, Option.some_or]

/-- Along times that do not decrease, the presence of a key depends on its latest sign and the
sweeps. By induction on the log: a new sign is no older than any sweep before it. -/
theorem lastSign_eq_some_iff (htimeout : 0 < timeout)
    (hsorted : (log.map Mark.time).Pairwise (· ≤ ·)) {sign : ℤ} :
    lastSign timeout log key = some sign ↔
      latest log key = some (true, sign) ∧ ∀ time, .swept time ∈ log → time - sign < timeout := by
  induction log using List.reverseRecOn generalizing sign with
  | nil => simp [lastSign, latest]
  | append_singleton log mark ih =>
    rw [List.map_append, List.pairwise_append] at hsorted
    obtain ⟨hlog, -, hmark⟩ := hsorted
    have hbefore : ∀ m ∈ log, m.time ≤ mark.time := fun m hm =>
      hmark m.time (List.mem_map_of_mem hm) mark.time (List.mem_singleton_self _)
    rw [lastSign_concat, latest_concat]
    have hmem : ∀ time, Mark.swept time ∈ log ++ [mark] ↔
        Mark.swept time ∈ log ∨ Mark.swept time = mark := fun time => by
      rw [List.mem_append, List.mem_singleton]
    simp only [hmem]
    cases mark with
    | seen key' now =>
      by_cases hkey : key' = key
      · simp only [update, Mark.sign?, if_pos hkey, Option.some_or, Option.some_inj, Prod.mk.injEq,
          true_and, reduceCtorEq, or_false]
        refine ⟨fun h => ⟨h, fun time htime => ?_⟩, fun h => h.1⟩
        have hle : time ≤ now := hbefore _ htime
        omega
      · simp only [update, Mark.sign?, if_neg hkey, Option.none_or, reduceCtorEq, or_false]
        exact ih hlog
    | left key' now =>
      by_cases hkey : key' = key
      · simp [update, Mark.sign?, hkey]
      · simp only [update, Mark.sign?, if_neg hkey, Option.none_or, reduceCtorEq, or_false]
        exact ih hlog
    | swept now =>
      simp only [update, Mark.sign?, Option.none_or, Mark.swept.injEq, Option.filter_eq_some_iff,
        decide_eq_true_eq]
      rw [ih hlog]
      constructor
      · rintro ⟨⟨hlatest, hswept⟩, hyoung⟩
        refine ⟨hlatest, fun time htime => ?_⟩
        rcases htime with htime | rfl
        · exact hswept time htime
        · exact hyoung
      · rintro ⟨hlatest, hswept⟩
        exact ⟨⟨hlatest, fun time htime => hswept time (.inl htime)⟩, hswept now (.inr rfl)⟩

/-- **Behind a sweep** the present keys are those whose latest sign is younger than the timeout. -/
theorem lastSign_swept (htimeout : 0 < timeout) {now : ℤ}
    (hsorted : ((log ++ [Mark.swept now]).map Mark.time).Pairwise (· ≤ ·)) {sign : ℤ} :
    lastSign timeout (log ++ [.swept now]) key = some sign ↔
      latest (log ++ [.swept now]) key = some (true, sign) ∧ now - sign < timeout := by
  rw [lastSign_eq_some_iff htimeout hsorted]
  refine and_congr_right fun _ => ⟨fun h => h now (by simp), fun hyoung time htime => ?_⟩
  rw [List.map_append, List.pairwise_append] at hsorted
  rw [List.mem_append, List.mem_singleton] at htime
  rcases htime with htime | htime
  · have hle : time ≤ now :=
      hsorted.2.2 time (List.mem_map_of_mem htime) now (List.mem_singleton_self _)
    omega
  · cases htime
    exact hyoung

end Steps

end LastSeen
