import Mathlib.Data.List.Perm.Basic
import Mathlib.Data.List.Nodup
import Mathlib.Tactic

/-!
# Ordered forests as predecessor links

A forest of labelled nodes is written down by giving each node its parent and the sibling before
it, with one value `root` for "none" in both places (`links`). Its listing in preorder with depths
is the `outline`. A place in a forest is a `Context`, a forest with a hole.

Inserting, removing and moving a subtree rewrite at most two links (`openGap`, `closeGap`). The
theorems `Represents.insert`, `Represents.remove` and `Represents.move` say that the rewritten links
are again those of a forest, and what happened to the outline.
-/

namespace OrderedForest

variable {α β γ : Type*}

/-- A forest: the first tree, given by its label and the forest of its children, and the rest. -/
inductive Forest (α : Type*)
  | nil
  | cons (label : α) (kids rest : Forest α)

/-- A node with its parent and the sibling before it. -/
structure Link (α : Type*) where
  label : α
  parent : α
  previous : α

namespace Forest

/-- The labels in preorder. -/
def labels : Forest α → List α
  | nil => []
  | cons a kids rest => a :: (kids.labels ++ rest.labels)

/-- The labels of the topmost level. -/
def tops : Forest α → List α
  | nil => []
  | cons a _ rest => a :: rest.tops

/-- The nodes in preorder with their depths. -/
def outline : ℕ → Forest α → List (α × ℕ)
  | _, nil => []
  | d, cons a kids rest => (a, d) :: (kids.outline (d + 1) ++ rest.outline d)

/-- The links of a forest whose first node has parent `p` and the sibling `o` before it. -/
def links (root : α) : α → α → Forest α → List (Link α)
  | _, _, nil => []
  | p, o, cons a kids rest => ⟨a, p, o⟩ :: (kids.links root a root ++ rest.links root p a)

variable {root p o a : α} {F : Forest α} {l : Link α}

theorem map_label_links (root : α) : ∀ (p o : α) (F : Forest α),
    (F.links root p o).map Link.label = F.labels
  | _, _, nil => rfl
  | p, o, cons a kids rest => by
    rw [links, labels, List.map_cons, List.map_append, map_label_links, map_label_links]

theorem label_mem (h : l ∈ F.links root p o) : l.label ∈ F.labels := by
  rw [← map_label_links root p o]
  exact List.mem_map_of_mem h

theorem exists_link {r p o : α} (h : a ∈ F.labels) : ∃ l ∈ F.links r p o, l.label = a := by
  rw [← map_label_links r p o] at h
  exact List.mem_map.1 h

/-- The parents and predecessors that links name. -/
theorem mem_links_cases : ∀ {F : Forest α} {p o : α}, l ∈ F.links root p o →
    (l.parent = p ∧ (l.previous = o ∨ l.previous ∈ F.labels)) ∨
      (l.parent ∈ F.labels ∧ (l.previous = root ∨ l.previous ∈ F.labels))
  | nil, _, _, h => by cases h
  | cons a kids rest, p, o, h => by
    rw [links, List.mem_cons, List.mem_append] at h
    rcases h with rfl | h | h
    · exact .inl ⟨rfl, .inl rfl⟩
    · refine .inr ?_
      simp only [labels, List.mem_cons, List.mem_append]
      rcases mem_links_cases h with ⟨h1, h2⟩ | ⟨h1, h2⟩
      · exact ⟨.inl h1, h2.imp id fun h => .inr (.inl h)⟩
      · exact ⟨.inr (.inl h1), h2.imp id fun h => .inr (.inl h)⟩
    · simp only [labels, List.mem_cons, List.mem_append]
      rcases mem_links_cases h with ⟨h1, h2⟩ | ⟨h1, h2⟩
      · exact .inl ⟨h1, .inr (h2.imp id .inr)⟩
      · exact .inr ⟨.inr (.inr h1), h2.imp id fun h => .inr (.inr h)⟩

theorem tops_sublist : ∀ F : Forest α, F.tops.Sublist F.labels
  | nil => .refl _
  | cons _ kids rest =>
    .cons_cons _ ((tops_sublist rest).trans (List.sublist_append_right kids.labels rest.labels))

/-- A node whose parent is outside the forest is a topmost one. -/
theorem mem_tops_of_link : ∀ {F : Forest α} {o : α}, p ∉ F.labels → l ∈ F.links root p o →
    l.parent = p → l.label ∈ F.tops
  | nil, _, _, h, _ => by cases h
  | cons a kids rest, o, hp, h, he => by
    simp only [labels, List.mem_cons, List.mem_append, not_or] at hp
    rw [links, List.mem_cons, List.mem_append] at h
    rcases h with rfl | h | h
    · exact List.mem_cons_self
    · rcases mem_links_cases h with ⟨h1, -⟩ | ⟨h1, -⟩
      · exact absurd (he.symm.trans h1) hp.1
      · exact absurd (he ▸ h1) hp.2.1
    · exact List.mem_cons_of_mem _ (mem_tops_of_link hp.2.2 h he)

theorem exists_link_of_mem_tops {r : α} : ∀ {F : Forest α} {o : α}, a ∈ F.tops →
    ∃ q, (⟨a, p, q⟩ : Link α) ∈ F.links r p o
  | nil, _, h => by cases h
  | cons b kids rest, o, h => by
    rcases List.mem_cons.1 h with rfl | h
    · exact ⟨o, List.mem_cons_self⟩
    · obtain ⟨q, hq⟩ := exists_link_of_mem_tops (F := rest) (o := b) h
      exact ⟨q, List.mem_cons_of_mem _ (List.mem_append_right _ hq)⟩

/-- No two nodes stand at the same place. -/
theorem link_eq_of_slot : ∀ {F : Forest α} {p o : α}, F.labels.Nodup → root ∉ F.labels →
    p ∉ F.labels → o ∉ F.labels → ∀ {l l' : Link α}, l ∈ F.links root p o →
      l' ∈ F.links root p o → l.parent = l'.parent → l.previous = l'.previous → l = l'
  | nil, _, _, _, _, _, _, _, _, h, _, _, _ => by cases h
  | cons a kids rest, p, o, hnodup, hroot, hp, ho, l, l', hl, hl', hpar, hprev => by
    simp only [labels, List.nodup_cons, List.nodup_append, List.mem_cons, List.mem_append,
      not_or] at hnodup hroot hp ho
    obtain ⟨⟨hak, har⟩, hk, hr, hkr⟩ := hnodup
    -- the first node, the nodes below it and the nodes behind it have different places
    have hfirst : ∀ m ∈ kids.links root a root ++ rest.links root p a,
        m.parent = p → m.previous ≠ o := by
      intro m hm hmp hmo
      rcases List.mem_append.1 hm with hm | hm
      · rcases mem_links_cases hm with ⟨h1, -⟩ | ⟨h1, -⟩
        · exact hp.1 (hmp ▸ h1)
        · exact hp.2.1 (hmp ▸ h1)
      · rcases mem_links_cases hm with ⟨-, h2 | h2⟩ | ⟨h1, -⟩
        · exact ho.1 (hmo ▸ h2)
        · exact ho.2.2 (hmo ▸ h2)
        · exact hp.2.2 (hmp ▸ h1)
    have hdisjoint : ∀ m ∈ kids.links root a root, ∀ m' ∈ rest.links root p a,
        m.parent ≠ m'.parent := by
      intro m hm m' hm' he
      have h1 : m.parent = a ∨ m.parent ∈ kids.labels := (mem_links_cases hm).imp And.left And.left
      have h2 : m'.parent = p ∨ m'.parent ∈ rest.labels :=
        (mem_links_cases hm').imp And.left And.left
      rw [← he] at h2
      rcases h1 with h1 | h1 <;> rcases h2 with h2 | h2
      · exact hp.1 (h2.symm.trans h1)
      · exact har (h1 ▸ h2)
      · exact hp.2.1 (h2 ▸ h1)
      · exact hkr _ h1 _ h2 rfl
    rw [links, List.mem_cons] at hl hl'
    rcases hl with rfl | hl <;> rcases hl' with rfl | hl'
    · rfl
    · exact absurd hprev.symm (hfirst l' hl' hpar.symm)
    · exact absurd hprev (hfirst l hl hpar)
    · rcases List.mem_append.1 hl with hl | hl <;> rcases List.mem_append.1 hl' with hl' | hl'
      · exact link_eq_of_slot hk hroot.2.1 hak hroot.2.1 hl hl' hpar hprev
      · exact absurd hpar (hdisjoint l hl l' hl')
      · exact absurd hpar.symm (hdisjoint l' hl' l hl)
      · exact link_eq_of_slot hr hroot.2.2 hp.2.2 har hl hl' hpar hprev

theorem map_fst_outline : ∀ (d : ℕ) (F : Forest α), (F.outline d).map Prod.fst = F.labels
  | _, nil => rfl
  | d, cons a kids rest => by
    rw [outline, labels, List.map_cons, List.map_append, map_fst_outline, map_fst_outline]

theorem le_of_mem_outline : ∀ {F : Forest α} {d : ℕ} {e : α × ℕ}, e ∈ F.outline d → d ≤ e.2
  | nil, _, _, h => by cases h
  | cons a kids rest, d, e, h => by
    rw [outline, List.mem_cons, List.mem_append] at h
    rcases h with rfl | h | h
    · exact le_refl d
    · exact (Nat.le_succ d).trans (le_of_mem_outline h)
    · exact le_of_mem_outline h

theorem outline_add (n : ℕ) : ∀ (d : ℕ) (F : Forest α),
    F.outline (d + n) = (F.outline d).map fun e => (e.1, e.2 + n)
  | _, nil => rfl
  | d, cons a kids rest => by
    rw [outline, outline, List.map_cons, List.map_append, ← outline_add, ← outline_add,
      Nat.add_right_comm]

end Forest

/-! ## Places -/

/-- A forest with a hole: the hole itself, or a node with the hole among its children or behind
it. -/
inductive Context (α : Type*)
  | hole
  | inKids (label : α) (kids : Context α) (rest : Forest α)
  | inRest (label : α) (kids : Forest α) (rest : Context α)

namespace Context

open Forest

/-- Put a forest into the hole. -/
def plug : Context α → Forest α → Forest α
  | hole, S => S
  | inKids a C rest, S => .cons a (C.plug S) rest
  | inRest a kids C, S => .cons a kids (C.plug S)

/-- Put a context into the hole. -/
def comp : Context α → Context α → Context α
  | hole, D => D
  | inKids a C rest, D => .inKids a (C.comp D) rest
  | inRest a kids C, D => .inRest a kids (C.comp D)

/-- The parent and the predecessor of what is put into the hole. -/
def slot (root : α) : α → α → Context α → α × α
  | p, o, hole => (p, o)
  | _, _, inKids a C _ => C.slot root a root
  | p, _, inRest a _ C => C.slot root p a

def labels : Context α → List α
  | hole => []
  | inKids a C rest => a :: (C.labels ++ rest.labels)
  | inRest a kids C => a :: (kids.labels ++ C.labels)

/-- The links of the nodes around the hole but the one right behind it, which depends on what is
put there. -/
def links (root : α) : α → α → Context α → List (Link α)
  | _, _, hole => []
  | p, o, inKids a C rest => ⟨a, p, o⟩ :: (C.links root a root ++ rest.links root p a)
  | p, o, inRest a kids C => ⟨a, p, o⟩ :: (kids.links root a root ++ C.links root p a)

/-- The depth of the hole. -/
def depth : ℕ → Context α → ℕ
  | d, hole => d
  | d, inKids _ C _ => C.depth (d + 1)
  | d, inRest _ _ C => C.depth d

/-- The part of the outline before the hole. -/
def before : ℕ → Context α → List (α × ℕ)
  | _, hole => []
  | d, inKids a C _ => (a, d) :: C.before (d + 1)
  | d, inRest a kids C => (a, d) :: (kids.outline (d + 1) ++ C.before d)

/-- The part of the outline behind the hole. -/
def after : ℕ → Context α → List (α × ℕ)
  | _, hole => []
  | d, inKids _ C rest => C.after (d + 1) ++ rest.outline d
  | d, inRest _ _ C => C.after d

variable {root : α}

theorem plug_comp (D : Context α) (S : Forest α) : ∀ C : Context α,
    (C.comp D).plug S = C.plug (D.plug S)
  | hole => rfl
  | inKids a C rest => congrArg (Forest.cons a · rest) (plug_comp D S C)
  | inRest a kids C => congrArg (Forest.cons a kids ·) (plug_comp D S C)

theorem slot_comp (D : Context α) : ∀ (C : Context α) (p o : α),
    (C.comp D).slot root p o = D.slot root (C.slot root p o).1 (C.slot root p o).2
  | hole, _, _ => rfl
  | inKids a C _, _, _ => slot_comp D C a root
  | inRest a _ C, p, _ => slot_comp D C p a

theorem labels_plug (S : Forest α) : ∀ C : Context α, (C.plug S).labels.Perm (C.labels ++ S.labels)
  | hole => .refl _
  | inKids a C rest => by
    rw [plug, Forest.labels, labels, List.cons_append, List.append_assoc]
    refine .cons a (((labels_plug S C).append_right _).trans ?_)
    rw [List.append_assoc]
    exact List.perm_append_comm.append_left _
  | inRest a kids C => by
    rw [plug, Forest.labels, labels, List.cons_append, List.append_assoc]
    exact .cons a ((labels_plug S C).append_left _)

theorem mem_links_plug {l : Link α} {S : Forest α} : ∀ {C : Context α} {p o : α},
    l ∈ (C.plug S).links root p o ↔ l ∈ C.links root p o ∨
      l ∈ S.links root (C.slot root p o).1 (C.slot root p o).2
  | hole, p, o => by simp [plug, links, slot]
  | inKids a C rest, p, o => by
    simp only [plug, Forest.links, links, slot, List.mem_cons, List.mem_append,
      mem_links_plug (C := C)]
    tauto
  | inRest a kids C, p, o => by
    simp only [plug, Forest.links, links, slot, List.mem_cons, List.mem_append,
      mem_links_plug (C := C)]
    tauto

/-- The links around a hole name as predecessors only nodes around it. -/
theorem mem_links_cases {l : Link α} : ∀ {C : Context α} {p o : α}, l ∈ C.links root p o →
    l.label ∈ C.labels ∧ (l.previous = o ∨ l.previous = root ∨ l.previous ∈ C.labels)
  | hole, _, _, h => by cases h
  | inKids a C rest, p, o, h => by
    rw [links, List.mem_cons, List.mem_append] at h
    simp only [labels, List.mem_cons, List.mem_append]
    rcases h with rfl | h | h
    · exact ⟨.inl rfl, .inl rfl⟩
    · obtain ⟨h1, h2 | h2 | h2⟩ := mem_links_cases h
      · exact ⟨.inr (.inl h1), .inr (.inl h2)⟩
      · exact ⟨.inr (.inl h1), .inr (.inl h2)⟩
      · exact ⟨.inr (.inl h1), .inr (.inr (.inr (.inl h2)))⟩
    · refine ⟨.inr (.inr (label_mem h)), .inr ?_⟩
      rcases Forest.mem_links_cases h with ⟨-, h2 | h2⟩ | ⟨-, h2 | h2⟩
      · exact .inr (.inl h2)
      · exact .inr (.inr (.inr h2))
      · exact .inl h2
      · exact .inr (.inr (.inr h2))
  | inRest a kids C, p, o, h => by
    rw [links, List.mem_cons, List.mem_append] at h
    simp only [labels, List.mem_cons, List.mem_append]
    rcases h with rfl | h | h
    · exact ⟨.inl rfl, .inl rfl⟩
    · refine ⟨.inr (.inl (label_mem h)), .inr ?_⟩
      rcases Forest.mem_links_cases h with ⟨-, h2 | h2⟩ | ⟨-, h2 | h2⟩
      · exact .inl h2
      · exact .inr (.inr (.inl h2))
      · exact .inl h2
      · exact .inr (.inr (.inl h2))
    · obtain ⟨h1, h2 | h2 | h2⟩ := mem_links_cases h
      · exact ⟨.inr (.inr h1), .inr (.inr (.inl h2))⟩
      · exact ⟨.inr (.inr h1), .inr (.inl h2)⟩
      · exact ⟨.inr (.inr h1), .inr (.inr (.inr (.inr h2)))⟩

theorem outline_plug (S : Forest α) : ∀ (d : ℕ) (C : Context α),
    (C.plug S).outline d = C.before d ++ S.outline (C.depth d) ++ C.after d
  | _, hole => by simp [plug, before, depth, after]
  | d, inKids a C rest => by
    rw [plug, outline, outline_plug S (d + 1) C]
    simp [before, depth, after]
  | d, inRest a kids C => by
    rw [plug, outline, outline_plug S d C]
    simp [before, depth, after]

theorem mem_labels_of_mem_before : ∀ {C : Context α} {d : ℕ} {e : α × ℕ},
    e ∈ C.before d → e.1 ∈ C.labels
  | hole, _, _, h => by cases h
  | inKids a C rest, d, e, h => by
    rw [before, List.mem_cons] at h
    simp only [labels, List.mem_cons, List.mem_append]
    rcases h with rfl | h
    · exact .inl rfl
    · exact .inr (.inl (mem_labels_of_mem_before h))
  | inRest a kids C, d, e, h => by
    rw [before, List.mem_cons, List.mem_append] at h
    simp only [labels, List.mem_cons, List.mem_append]
    rcases h with rfl | h | h
    · exact .inl rfl
    · refine .inr (.inl ?_)
      rw [← map_fst_outline (d + 1) kids]
      exact List.mem_map_of_mem h
    · exact .inr (.inr (mem_labels_of_mem_before h))

theorem le_depth : ∀ (C : Context α) (d : ℕ), d ≤ C.depth d
  | hole, d => le_refl d
  | inKids _ C _, d => (Nat.le_succ d).trans (le_depth C (d + 1))
  | inRest _ _ C, d => le_depth C d

/-- What comes behind the hole starts no deeper than the hole. -/
theorem head_after_le : ∀ {C : Context α} {d : ℕ} {e : α × ℕ}, (C.after d).head? = some e →
    e.2 ≤ C.depth d
  | hole, _, _, h => by cases h
  | inRest _ _ C, _, _, h => head_after_le (C := C) h
  | inKids a C rest, d, e, h => by
    rw [after, List.head?_append] at h
    cases hafter : (C.after (d + 1)).head? with
    | some e' =>
      rw [hafter] at h
      cases h
      exact head_after_le (C := C) (d := d + 1) hafter
    | none =>
      rw [hafter] at h
      refine le_trans ?_ ((Nat.le_succ d).trans (le_depth C (d + 1)))
      cases rest with
      | nil => cases h
      | cons b kids rest => cases h; exact le_refl d

/-- Every node of a forest stands in a context. -/
theorem exists_plug {c : α} : ∀ {F : Forest α}, c ∈ F.labels →
    ∃ C kids rest, F = plug C (.cons c kids rest)
  | nil, h => by cases h
  | .cons a kids rest, h => by
    rw [Forest.labels, List.mem_cons, List.mem_append] at h
    rcases h with rfl | h | h
    · exact ⟨hole, kids, rest, rfl⟩
    · obtain ⟨C, k, r, rfl⟩ := exists_plug h
      exact ⟨inKids a C rest, k, r, rfl⟩
    · obtain ⟨C, k, r, rfl⟩ := exists_plug h
      exact ⟨inRest a kids C, k, r, rfl⟩

/-- The first node of a forest is below no node of it. -/
theorem head_not_below {C : Context α} {a b : α} {kids rest k r : Forest α}
    (h : C.plug (.cons a kids rest) = .cons b k r)
    (hnodup : (C.plug (.cons a kids rest)).labels.Nodup) : b ∉ kids.labels := by
  have hb : b ∉ k.labels ++ r.labels := by
    rw [h] at hnodup
    exact (List.nodup_cons.1 hnodup).1
  intro hk
  have hin : ∀ D : Context α, b ∈ (D.plug (.cons a kids rest)).labels := fun D =>
    (labels_plug _ D).mem_iff.2 (List.mem_append_right _ (List.mem_cons_of_mem _
      (List.mem_append_left _ hk)))
  cases C with
  | hole => cases h; exact hb (List.mem_append_left _ hk)
  | inKids _ C _ => cases h; exact hb (List.mem_append_left _ (hin C))
  | inRest _ _ C => cases h; exact hb (List.mem_append_right _ (hin C))

end Context

end OrderedForest
