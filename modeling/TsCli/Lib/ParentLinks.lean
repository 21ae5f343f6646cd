import Mathlib.Logic.Relation
import Mathlib.Tactic

/-!
# Following parent links

Each node names at most one parent. A node `Climbs` to another one when it is reached by following
the parents. What climbs to a node without a parent is in no cycle, so the subtrees of two siblings
are disjoint.
-/

namespace ParentLinks

variable {α : Type*} {parent : α → Option α} {a b c p root : α}

/-- The nodes reached from a node by following the parents. -/
def Climbs (parent : α → Option α) : α → α → Prop :=
  Relation.ReflTransGen fun a b => parent a = some b

theorem Climbs.refl (a : α) : Climbs parent a a := Relation.ReflTransGen.refl

theorem Climbs.head (h : parent a = some b) (hb : Climbs parent b c) : Climbs parent a c :=
  Relation.ReflTransGen.head h hb

theorem Climbs.trans (h : Climbs parent a b) (h' : Climbs parent b c) : Climbs parent a c :=
  Relation.ReflTransGen.trans h h'

/-- A node is where it climbs to, or its parent climbs there. -/
theorem Climbs.cases (h : Climbs parent a b) :
    a = b ∨ ∃ q, parent a = some q ∧ Climbs parent q b :=
  Relation.ReflTransGen.cases_head h

/-- Of two nodes above one node, one climbs to the other. -/
theorem Climbs.total (hb : Climbs parent a b) (hc : Climbs parent a c) :
    Climbs parent b c ∨ Climbs parent c b :=
  Relation.ReflTransGen.total_of_right_unique
    (fun _ _ _ h h' => Option.some.inj (h.symm.trans h')) hb hc

/-- What climbs to a root is not above its own parent. -/
theorem Climbs.not_below_self (hroot : parent root = none) (h : Climbs parent a root)
    (ha : parent a = some b) : ¬ Climbs parent b a := by
  induction h using Relation.ReflTransGen.head_induction_on generalizing b with
  | refl =>
    rw [hroot] at ha
    cases ha
  | head hstep hrest ih =>
    -- the cycle through `a` goes through its parent as well
    obtain rfl := Option.some.inj (hstep.symm.trans ha)
    intro hcycle
    obtain rfl | ⟨q, hq, hqa⟩ := hcycle.cases
    · exact ih ha (Climbs.refl _)
    · exact ih hq (hqa.trans (Climbs.head ha (Climbs.refl _)))

/-- The subtrees of siblings under a node that climbs to a root are disjoint. -/
theorem Climbs.disjoint_siblings (hroot : parent root = none) (hp : Climbs parent p root)
    (ha : parent a = some p) (hb : parent b = some p) (hne : a ≠ b) (hca : Climbs parent c a) :
    ¬ Climbs parent c b := by
  have habove : ∀ {a b : α}, parent a = some p → parent b = some p → a ≠ b →
      ¬ Climbs parent a b := by
    intro a b ha hb hne hab
    obtain rfl | ⟨q, hq, hqb⟩ := hab.cases
    · exact hne rfl
    · obtain rfl := Option.some.inj (ha.symm.trans hq)
      exact (Climbs.head hb hp).not_below_self hroot hb hqb
  intro hcb
  obtain h | h := hca.total hcb
  · exact habove ha hb hne h
  · exact habove hb ha hne.symm h

end ParentLinks
