import TsCli.Lib.ForestEdit

/-!
# Drawing forests with branches

A line of a drawing has one column for each level above its node, then a connector, then the text
of the node. The connector tells whether the node is the last of its siblings, and so does its
column in the lines below it.

A drawing can be read back if no piece of the pen starts with another one: then the lines give the
depths of the nodes, and an outline belongs to one forest only (`draw_injective`).
-/

namespace OrderedForest

variable {α β τ : Type*}

namespace Forest

def isNil : Forest α → Bool
  | nil => true
  | cons .. => false

/-- Put leaves in front of a forest. -/
def sprout : List β → Forest β → Forest β
  | [], F => F
  | b :: leaves, F => cons b nil (sprout leaves F)

/-- Relabel a forest, and put leaves in front of the children of each node. -/
def withLeaves (label : α → β) (leaves : α → List β) : Forest α → Forest β
  | nil => nil
  | cons a kids rest =>
    cons (label a) (sprout (leaves a) (kids.withLeaves label leaves)) (rest.withLeaves label leaves)

section Leaves

variable (label : α → β) (leaves : α → List β)

@[simp] theorem isNil_withLeaves (F : Forest α) : (F.withLeaves label leaves).isNil = F.isNil := by
  cases F <;> rfl

theorem length_labels_sprout (l : List β) (F : Forest β) :
    (sprout l F).labels.length = l.length + F.labels.length := by
  induction l with
  | nil => simp [sprout]
  | cons b l ih =>
    rw [sprout, labels, labels, List.nil_append, List.length_cons, ih, List.length_cons]
    omega

/-- A line for each node, and one for each leaf. -/
theorem length_labels_withLeaves : ∀ F : Forest α,
    (F.withLeaves label leaves).labels.length =
      F.labels.length + (F.labels.map fun a => (leaves a).length).sum
  | nil => rfl
  | cons a kids rest => by
    rw [withLeaves, labels, List.length_cons, List.length_append, length_labels_sprout,
      length_labels_withLeaves kids, length_labels_withLeaves rest, labels]
    simp only [List.length_cons, List.length_append, List.map_cons, List.map_append,
      List.sum_cons, List.sum_append]
    omega

end Leaves

end Forest

/-! ## Drawings -/

/-- What a drawing is made of. -/
structure Pen (τ : Type*) where
  /-- The column of a node with siblings behind it. -/
  bar : List τ
  /-- The column of a last sibling. -/
  blank : List τ
  /-- The connector of a node with siblings behind it. -/
  tee : List τ
  /-- The connector of a last sibling. -/
  elbow : List τ

namespace Pen

variable (pen : Pen τ)

def column (last : Bool) : List τ := if last then pen.blank else pen.bar

def connector (last : Bool) : List τ := if last then pen.elbow else pen.tee

/-- The columns of the levels above a line. -/
def columns (above : List Bool) : List τ := (above.map pen.column).flatten

@[simp] theorem columns_nil : pen.columns [] = [] := rfl

theorem columns_cons (last : Bool) (above : List Bool) :
    pen.columns (last :: above) = pen.column last ++ pen.columns above := rfl

theorem columns_append (above : List Bool) (last : Bool) :
    pen.columns (above ++ [last]) = pen.columns above ++ pen.column last := by
  simp [columns]

/-- The line of a node: where it hangs, and its text. -/
def line (l : List Bool × Bool × List τ) : List τ :=
  pen.columns l.1 ++ (pen.connector l.2.1 ++ l.2.2)

/-- No piece starts with another one. -/
def PrefixFree : Prop :=
  [pen.bar, pen.blank, pen.tee, pen.elbow].Pairwise fun p q => ¬ p <+: q ∧ ¬ q <+: p

instance [DecidableEq τ] : Decidable pen.PrefixFree :=
  inferInstanceAs (Decidable (List.Pairwise _ _))

variable {pen}

theorem eq_of_append_eq {p q s t : List τ} (h : p ++ s = q ++ t) (hpq : ¬ p <+: q ∧ ¬ q <+: p) :
    False := by
  rcases List.prefix_or_prefix_of_prefix (List.prefix_append p s)
    (h ▸ List.prefix_append q t) with h | h
  · exact hpq.1 h
  · exact hpq.2 h

section PrefixFree

variable (h : pen.PrefixFree)

include h

theorem column_append_inj {last last' : Bool} {s t : List τ}
    (he : pen.column last ++ s = pen.column last' ++ t) : last = last' ∧ s = t := by
  simp only [PrefixFree, List.pairwise_cons, List.mem_cons, List.not_mem_nil, or_false,
    forall_eq_or_imp, forall_eq] at h
  cases last <;> cases last'
  · exact ⟨rfl, List.append_cancel_left he⟩
  · exact (eq_of_append_eq he h.1.1).elim
  · exact (eq_of_append_eq he.symm h.1.1).elim
  · exact ⟨rfl, List.append_cancel_left he⟩

theorem connector_append_inj {last last' : Bool} {s t : List τ}
    (he : pen.connector last ++ s = pen.connector last' ++ t) : last = last' ∧ s = t := by
  simp only [PrefixFree, List.pairwise_cons, List.mem_cons, List.not_mem_nil, or_false,
    forall_eq_or_imp, forall_eq] at h
  cases last <;> cases last'
  · exact ⟨rfl, List.append_cancel_left he⟩
  · exact (eq_of_append_eq he h.2.2.1).elim
  · exact (eq_of_append_eq he.symm h.2.2.1).elim
  · exact ⟨rfl, List.append_cancel_left he⟩

theorem column_ne_connector {last last' : Bool} {s t : List τ}
    (he : pen.column last ++ s = pen.connector last' ++ t) : False := by
  simp only [PrefixFree, List.pairwise_cons, List.mem_cons, List.not_mem_nil, or_false,
    forall_eq_or_imp, forall_eq] at h
  cases last <;> cases last'
  · exact eq_of_append_eq he h.1.2.1
  · exact eq_of_append_eq he h.1.2.2
  · exact eq_of_append_eq he h.2.1.1
  · exact eq_of_append_eq he h.2.1.2

/-- A line says where its node hangs, and its text. -/
theorem line_injective : Function.Injective pen.line := by
  rintro ⟨above, last, text⟩ ⟨above', last', text'⟩ he
  simp only [line] at he
  induction above generalizing above' with
  | nil =>
    cases above' with
    | nil =>
      obtain ⟨rfl, rfl⟩ := connector_append_inj h he
      rfl
    | cons first above' =>
      rw [columns_cons, List.append_assoc] at he
      exact (column_ne_connector h he.symm).elim
  | cons first above ih =>
    rw [columns_cons, List.append_assoc] at he
    cases above' with
    | nil => exact (column_ne_connector h he).elim
    | cons first' above' =>
      rw [columns_cons, List.append_assoc] at he
      obtain ⟨rfl, hrest⟩ := column_append_inj h he
      have heq := ih above' hrest
      rw [Prod.mk.injEq] at heq ⊢
      exact ⟨by rw [heq.1], heq.2⟩

end PrefixFree

end Pen

namespace Forest

variable (pen : Pen τ)

/-- Draw a forest behind the columns of the levels above it. -/
def draw (indent : List τ) : Forest (List τ) → List (List τ)
  | nil => []
  | cons text kids rest =>
    (indent ++ (pen.connector rest.isNil ++ text)) ::
      (kids.draw (indent ++ pen.column rest.isNil) ++ rest.draw indent)

/-- Where each node hangs, with its text. -/
def hangings : List Bool → Forest α → List (List Bool × Bool × α)
  | _, nil => []
  | above, cons a kids rest =>
    (above, rest.isNil, a) :: (kids.hangings (above ++ [rest.isNil]) ++ rest.hangings above)

theorem draw_eq_map : ∀ (above : List Bool) (F : Forest (List τ)),
    F.draw pen (pen.columns above) = (F.hangings above).map pen.line
  | _, nil => rfl
  | above, cons text kids rest => by
    rw [draw, ← Pen.columns_append, draw_eq_map _ kids, draw_eq_map _ rest, hangings,
      List.map_cons, List.map_append]
    rfl

/-- A node hangs below as many levels as its depth says. -/
theorem map_hangings : ∀ (above : List Bool) (F : Forest α),
    (F.hangings above).map (fun l => (l.2.2, l.1.length)) = F.outline above.length
  | _, nil => rfl
  | above, cons a kids rest => by
    rw [hangings, List.map_cons, List.map_append, map_hangings _ kids, map_hangings _ rest,
      List.length_append]
    rfl

/-- The drawing of a forest gives the forest. -/
theorem draw_injective {pen : Pen τ} (h : pen.PrefixFree) : Function.Injective (draw pen []) := by
  intro F G hdraw
  rw [← Pen.columns_nil pen, draw_eq_map, draw_eq_map] at hdraw
  have hline := (List.map_injective_iff.2 (Pen.line_injective h)) hdraw
  have houtline := congrArg (List.map fun l => (l.2.2, l.1.length)) hline
  rw [map_hangings, map_hangings] at houtline
  exact outline_injective houtline

/-- One line for each node. -/
theorem length_draw (indent : List τ) (F : Forest (List τ)) :
    (F.draw pen indent).length = F.labels.length := by
  induction F generalizing indent with
  | nil => rfl
  | cons text kids rest ihk ihr =>
    rw [draw, labels, List.length_cons, List.length_append, ihk, ihr, List.length_cons,
      List.length_append]

/-- Leaves in front of a forest are drawn first; the last one has an elbow if nothing follows. -/
theorem draw_sprout (indent : List τ) (text : β → List τ) (leaves : List β)
    (F : Forest (List τ)) :
    (sprout (leaves.map text) F).draw pen indent =
      leaves.mapIdx (fun i leaf => indent ++
        (pen.connector (decide (i + 1 = leaves.length) && F.isNil) ++ text leaf)) ++
        F.draw pen indent := by
  induction leaves with
  | nil => rfl
  | cons leaf leaves ih =>
    have hnil : (sprout (leaves.map text) F).isNil =
        (decide (0 + 1 = (leaf :: leaves).length) && F.isNil) := by
      cases leaves with
      | nil => simp [sprout]
      | cons b leaves => simp [sprout, isNil]
    rw [List.map_cons, sprout, draw, draw, List.nil_append, ih, List.mapIdx_cons, hnil,
      List.cons_append]
    simp

end Forest

end OrderedForest
