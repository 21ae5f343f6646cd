import TsCli.Lib.OrderedForest

/-!
# Editing ordered forests

The edits are described twice: on the outline, where a subtree is a run of deeper entries
(`cutTree`, `subtree`, `pasteTree`), and on the links, where at most one other node is relinked
(`openGap`, `closeGap`). `Represents` joins the two: `Represents.insert`, `Represents.remove` and
`Represents.move` carry it over each edit and give the new outline.
-/

namespace OrderedForest

variable {α β γ : Type*}

/-! ## Edits of an outline -/

section Outline

/-- The outline without the subtree of the first entry that satisfies `is`. -/
def cutTree (is : β → Bool) : List (β × ℕ) → List (β × ℕ)
  | [] => []
  | e :: l => if is e.1 then l.dropWhile (e.2 < ·.2) else e :: cutTree is l

/-- The subtree of the first entry that satisfies `is`, from depth 0. -/
def subtree (is : β → Bool) : List (β × ℕ) → List (β × ℕ)
  | [] => []
  | e :: l =>
    if is e.1 then (e.1, 0) :: (l.takeWhile (e.2 < ·.2)).map fun x => (x.1, x.2 - e.2)
    else subtree is l

/-- Move a block down by `n` levels. -/
def shift (n : ℕ) (block : List (β × ℕ)) : List (β × ℕ) := block.map fun e => (e.1, e.2 + n)

/-- Put a block directly behind the subtree of the first entry that satisfies `is`. -/
def pasteAfter (is : β → Bool) (block : List (β × ℕ)) : List (β × ℕ) → List (β × ℕ)
  | [] => []
  | e :: l =>
    if is e.1 then
      e :: (l.takeWhile (e.2 < ·.2) ++ shift e.2 block ++ l.dropWhile (e.2 < ·.2))
    else e :: pasteAfter is block l

/-- Put a block in front of the children of the first entry that satisfies `is`. -/
def pasteUnder (is : β → Bool) (block : List (β × ℕ)) : List (β × ℕ) → List (β × ℕ)
  | [] => []
  | e :: l => if is e.1 then e :: (shift (e.2 + 1) block ++ l) else e :: pasteUnder is block l

/-- Put a block behind the subtree of `o`, or as the first under `p` when there is no `o`. -/
def pasteTree [DecidableEq α] (root p o : α) (label : β → α) (block l : List (β × ℕ)) :
    List (β × ℕ) :=
  if o ≠ root then pasteAfter (label · = o) block l
  else if p ≠ root then pasteUnder (label · = p) block l
  else block ++ l

variable {is : β → Bool} {e : β × ℕ} {before inside behind block : List (β × ℕ)}

theorem cutTree_append (h : ∀ x ∈ before, ¬ is x.1) (l : List (β × ℕ)) :
    cutTree is (before ++ l) = before ++ cutTree is l := by
  induction before with
  | nil => rfl
  | cons x before ih =>
    rw [List.cons_append, cutTree, if_neg (h x List.mem_cons_self),
      ih fun y hy => h y (List.mem_cons_of_mem _ hy), List.cons_append]

theorem subtree_append (h : ∀ x ∈ before, ¬ is x.1) (l : List (β × ℕ)) :
    subtree is (before ++ l) = subtree is l := by
  induction before with
  | nil => rfl
  | cons x before ih =>
    rw [List.cons_append, subtree, if_neg (h x List.mem_cons_self),
      ih fun y hy => h y (List.mem_cons_of_mem _ hy)]

theorem pasteAfter_append (h : ∀ x ∈ before, ¬ is x.1) (l : List (β × ℕ)) :
    pasteAfter is block (before ++ l) = before ++ pasteAfter is block l := by
  induction before with
  | nil => rfl
  | cons x before ih =>
    rw [List.cons_append, pasteAfter, if_neg (h x List.mem_cons_self),
      ih fun y hy => h y (List.mem_cons_of_mem _ hy), List.cons_append]

theorem pasteUnder_append (h : ∀ x ∈ before, ¬ is x.1) (l : List (β × ℕ)) :
    pasteUnder is block (before ++ l) = before ++ pasteUnder is block l := by
  induction before with
  | nil => rfl
  | cons x before ih =>
    rw [List.cons_append, pasteUnder, if_neg (h x List.mem_cons_self),
      ih fun y hy => h y (List.mem_cons_of_mem _ hy), List.cons_append]

/-! Nothing to cut, nothing to paste. -/

theorem cutTree_of_forall_not (h : ∀ x ∈ before, ¬ is x.1) : cutTree is before = before := by
  have := cutTree_append h []
  rwa [List.append_nil, cutTree, List.append_nil] at this

theorem subtree_of_forall_not (h : ∀ x ∈ before, ¬ is x.1) : subtree is before = [] := by
  have := subtree_append h []
  rwa [List.append_nil] at this

theorem pasteAfter_nil : ∀ l : List (β × ℕ), pasteAfter is [] l = l
  | [] => rfl
  | e :: l => by
    rw [pasteAfter, pasteAfter_nil l]
    split
    · rw [shift, List.map_nil, List.append_nil, List.takeWhile_append_dropWhile]
    · rfl

theorem pasteUnder_nil : ∀ l : List (β × ℕ), pasteUnder is [] l = l
  | [] => rfl
  | e :: l => by
    rw [pasteUnder, pasteUnder_nil l]
    split <;> rfl

theorem pasteTree_nil [DecidableEq α] (root p o : α) (label : β → α) (l : List (β × ℕ)) :
    pasteTree root p o label [] l = l := by
  unfold pasteTree
  split_ifs
  · exact pasteAfter_nil l
  · exact pasteUnder_nil l
  · rfl

theorem takeWhile_deeper (hin : ∀ x ∈ inside, e.2 < x.2)
    (hbehind : ∀ x, behind.head? = some x → x.2 ≤ e.2) :
    (inside ++ behind).takeWhile (e.2 < ·.2) = inside := by
  rw [List.takeWhile_append_of_pos (by simpa using hin)]
  cases behind with
  | nil => simp
  | cons x behind =>
    rw [List.takeWhile_cons_of_neg (by simpa using hbehind x rfl), List.append_nil]

theorem dropWhile_deeper (hin : ∀ x ∈ inside, e.2 < x.2)
    (hbehind : ∀ x, behind.head? = some x → x.2 ≤ e.2) :
    (inside ++ behind).dropWhile (e.2 < ·.2) = behind := by
  rw [List.dropWhile_append_of_pos (by simpa using hin)]
  cases behind with
  | nil => rfl
  | cons x behind => exact List.dropWhile_cons_of_neg (by simpa using hbehind x rfl)

/-! Relabelling an outline commutes with its edits. -/

section Map

variable (f : γ → β) (is : β → Bool) (block : List (γ × ℕ))

/-- Relabel an outline. -/
def relabel (f : γ → β) (l : List (γ × ℕ)) : List (β × ℕ) := l.map fun e => (f e.1, e.2)

theorem takeWhile_relabel (d : ℕ) (l : List (γ × ℕ)) :
    (relabel f l).takeWhile (d < ·.2) = relabel f (l.takeWhile (d < ·.2)) := by
  unfold relabel; rw [List.takeWhile_map]; rfl

theorem dropWhile_relabel (d : ℕ) (l : List (γ × ℕ)) :
    (relabel f l).dropWhile (d < ·.2) = relabel f (l.dropWhile (d < ·.2)) := by
  unfold relabel; rw [List.dropWhile_map]; rfl

theorem cutTree_relabel : ∀ l : List (γ × ℕ),
    cutTree is (relabel f l) = relabel f (cutTree (is ∘ f) l)
  | [] => rfl
  | e :: l => by
    show (if is (f e.1) then (relabel f l).dropWhile (e.2 < ·.2) else
      (f e.1, e.2) :: cutTree is (relabel f l)) = _
    rw [dropWhile_relabel, cutTree_relabel l, cutTree, Function.comp_apply]
    split <;> rfl

theorem subtree_relabel : ∀ l : List (γ × ℕ),
    subtree is (relabel f l) = relabel f (subtree (is ∘ f) l)
  | [] => rfl
  | e :: l => by
    show (if is (f e.1) then (f e.1, 0) :: ((relabel f l).takeWhile (e.2 < ·.2)).map
      (fun x => (x.1, x.2 - e.2)) else subtree is (relabel f l)) = _
    rw [takeWhile_relabel, subtree_relabel l, subtree, Function.comp_apply]
    split
    · simp [relabel]
    · rfl

theorem pasteAfter_relabel : ∀ l : List (γ × ℕ),
    pasteAfter is (relabel f block) (relabel f l) = relabel f (pasteAfter (is ∘ f) block l)
  | [] => rfl
  | e :: l => by
    show (if is (f e.1) then (f e.1, e.2) :: ((relabel f l).takeWhile (e.2 < ·.2) ++
      shift e.2 (relabel f block) ++ (relabel f l).dropWhile (e.2 < ·.2)) else
      (f e.1, e.2) :: pasteAfter is (relabel f block) (relabel f l)) = _
    rw [takeWhile_relabel, dropWhile_relabel, pasteAfter_relabel l, pasteAfter,
      Function.comp_apply]
    split
    · simp [relabel, shift]
    · rfl

theorem pasteUnder_relabel : ∀ l : List (γ × ℕ),
    pasteUnder is (relabel f block) (relabel f l) = relabel f (pasteUnder (is ∘ f) block l)
  | [] => rfl
  | e :: l => by
    show (if is (f e.1) then (f e.1, e.2) :: (shift (e.2 + 1) (relabel f block) ++ relabel f l) else
      (f e.1, e.2) :: pasteUnder is (relabel f block) (relabel f l)) = _
    rw [pasteUnder_relabel l, pasteUnder, Function.comp_apply]
    split
    · simp [relabel, shift]
    · rfl

theorem pasteTree_relabel [DecidableEq α] (root p o : α) (label : β → α) (l : List (γ × ℕ)) :
    pasteTree root p o label (relabel f block) (relabel f l) =
      relabel f (pasteTree root p o (label ∘ f) block l) := by
  unfold pasteTree
  split_ifs
  · exact pasteAfter_relabel f _ block l
  · exact pasteUnder_relabel f _ block l
  · exact List.map_append.symm

end Map

end Outline

/-! ## The outline of a plugged forest -/

section Plug

open Forest Context

variable {root p o c : α} {C : Context α} {kids rest S : Forest α} {d : ℕ}

/-- Where a subtree ends: its nodes are deeper, and what follows is not. -/
theorem outline_inside : ∀ x ∈ kids.outline (d + 1), d < x.2 := fun _ hx => le_of_mem_outline hx

theorem outline_behind : ∀ x, (rest.outline (C.depth d) ++ C.after d).head? = some x →
    x.2 ≤ C.depth d := by
  intro x hx
  cases rest with
  | nil => exact head_after_le hx
  | cons a k r => cases hx; exact le_refl _

theorem outline_plug_cons : (C.plug (.cons c kids rest)).outline d =
    C.before d ++ (c, C.depth d) :: (kids.outline (C.depth d + 1) ++
      (rest.outline (C.depth d) ++ C.after d)) := by
  rw [outline_plug, outline]; simp

theorem shift_outline (n : ℕ) : shift n ((c, 0) :: kids.outline 1) = (c, n) :: kids.outline (n + 1) := by
  rw [Nat.add_comm n 1, outline_add, shift, List.map_cons, Nat.zero_add]

variable [DecidableEq α]

theorem not_mem_before (hnodup : (C.plug (.cons c kids rest)).labels.Nodup) :
    ∀ x ∈ C.before d, ¬ decide (x.1 = c) = true := by
  intro x hx he
  have hperm := (labels_plug (.cons c kids rest) C).nodup_iff.1 hnodup
  exact (List.nodup_append.1 hperm).2.2 _ (mem_labels_of_mem_before hx) c List.mem_cons_self
    (of_decide_eq_true he)

theorem cutTree_plug (hnodup : (C.plug (.cons c kids rest)).labels.Nodup) :
    cutTree (· = c) ((C.plug (.cons c kids rest)).outline d) = (C.plug rest).outline d := by
  rw [outline_plug_cons, cutTree_append (not_mem_before hnodup), cutTree,
    if_pos (decide_eq_true rfl), dropWhile_deeper outline_inside outline_behind, outline_plug,
    List.append_assoc]

theorem subtree_plug (hnodup : (C.plug (.cons c kids rest)).labels.Nodup) :
    subtree (· = c) ((C.plug (.cons c kids rest)).outline d) = (c, 0) :: kids.outline 1 := by
  rw [outline_plug_cons, subtree_append (not_mem_before hnodup), subtree,
    if_pos (decide_eq_true rfl), takeWhile_deeper outline_inside outline_behind, Nat.add_comm,
    outline_add, List.map_map]
  refine congrArg _ (List.map_congr_left fun x _ => ?_) |>.trans (congrArg _ (List.map_id _))
  exact Prod.ext rfl (Nat.add_sub_cancel _ _)

/-- A node without children is one entry. -/
theorem filter_outline_plug (hc : c ∉ (C.plug rest).labels) :
    ((C.plug (.cons c .nil rest)).outline d).filter (·.1 ≠ c) = (C.plug rest).outline d := by
  have hall : ((C.plug rest).outline d).filter (·.1 ≠ c) = (C.plug rest).outline d := by
    refine List.filter_eq_self.2 fun e he => decide_eq_true fun h => hc ?_
    rw [← map_fst_outline d, ← h]
    exact List.mem_map_of_mem he
  rw [outline_plug_cons, List.filter_append, List.filter_cons_of_neg (by simp),
    ← List.filter_append, outline, List.nil_append, ← List.append_assoc, ← outline_plug]
  exact hall

/-- Pasting behind `o`. -/
theorem pasteAfter_plug (hnodup : (C.plug (.cons o kids rest)).labels.Nodup) :
    pasteAfter (· = o) ((c, 0) :: S.outline 1) ((C.plug (.cons o kids rest)).outline d) =
      (C.plug (.cons o kids (.cons c S rest))).outline d := by
  rw [outline_plug_cons, pasteAfter_append (not_mem_before hnodup), pasteAfter,
    if_pos (decide_eq_true rfl), takeWhile_deeper outline_inside outline_behind,
    dropWhile_deeper outline_inside outline_behind, shift_outline, outline_plug_cons, outline]
  simp

/-- Pasting under `p`. -/
theorem pasteUnder_plug (hnodup : (C.plug (.cons p kids rest)).labels.Nodup) :
    pasteUnder (· = p) ((c, 0) :: S.outline 1) ((C.plug (.cons p kids rest)).outline d) =
      (C.plug (.cons p (.cons c S kids) rest)).outline d := by
  rw [outline_plug_cons, pasteUnder_append (not_mem_before hnodup), pasteUnder,
    if_pos (decide_eq_true rfl), shift_outline, outline_plug_cons, outline]
  simp

end Plug

/-! An outline determines its forest. -/

section Injective

open Forest

theorem outline_injective : ∀ {F G : Forest α} {d : ℕ}, F.outline d = G.outline d → F = G
  | .nil, .nil, _, _ => rfl
  | .nil, .cons .., _, h => by cases h
  | .cons .., .nil, _, h => by cases h
  | .cons a k r, .cons b k' r', d, h => by
    obtain ⟨hhead, htail⟩ := List.cons.inj h
    obtain rfl : a = b := congrArg Prod.fst hhead
    have hbehind : ∀ r : Forest α, ∀ x, (r.outline d).head? = some x → x.2 ≤ (a, d).2 := by
      intro r x hx
      cases r with
      | nil => cases hx
      | cons c kids rest => cases hx; exact le_refl d
    have hkids := congrArg (List.takeWhile ((a, d).2 < ·.2)) htail
    have hrest := congrArg (List.dropWhile ((a, d).2 < ·.2)) htail
    rw [takeWhile_deeper outline_inside (hbehind r), takeWhile_deeper outline_inside (hbehind r')]
      at hkids
    rw [dropWhile_deeper outline_inside (hbehind r), dropWhile_deeper outline_inside (hbehind r')]
      at hrest
    rw [outline_injective hkids, outline_injective hrest]

end Injective

/-! ## Links -/

open Forest Context

/-- Where each node stands: its parent and the sibling before it. -/
abbrev Places (α : Type*) := α → Option (α × α)

section Links

variable [DecidableEq α] {root p o c : α} {L : Places α} {F : Forest α}

/-- The node behind `c` at place `(p, o)` takes `o` as its predecessor. -/
def closeGap (c p o : α) (L : Places α) : Places α := fun j =>
  (L j).map fun s => if j ≠ c ∧ s = (p, c) then (p, o) else s

/-- The node at place `(p, o)` takes `c` as its predecessor. -/
def openGap (c p o : α) (L : Places α) : Places α := fun j =>
  (L j).map fun s => if j ≠ c ∧ s = (p, o) then (p, c) else s

omit [DecidableEq α] in
/-- The places agree with links. -/
def Agrees (L : Places α) (links : List (Link α)) : Prop :=
  ∀ l ∈ links, L l.label = some (l.parent, l.previous)

/-- The places are those of a forest. -/
structure Represents (root : α) (L : Places α) (F : Forest α) : Prop where
  nodup : F.labels.Nodup
  root_notMem : root ∉ F.labels
  agrees : Agrees L (F.links root root root)
  mem_of_some : ∀ a s, L a = some s → a ∈ F.labels

theorem closeGap_of_ne {l : Link α} (h : L l.label = some (l.parent, l.previous))
    (hne : l.parent = p → l.previous ≠ c) :
    closeGap c p o L l.label = some (l.parent, l.previous) := by
  unfold closeGap
  rw [h, Option.map_some, if_neg fun he => hne (congrArg Prod.fst he.2) (congrArg Prod.snd he.2)]

theorem openGap_of_ne {l : Link α} (h : L l.label = some (l.parent, l.previous))
    (hne : l.parent = p → l.previous ≠ o) :
    openGap c p o L l.label = some (l.parent, l.previous) := by
  unfold openGap
  rw [h, Option.map_some, if_neg fun he => hne (congrArg Prod.fst he.2) (congrArg Prod.snd he.2)]

omit [DecidableEq α] in
/-- Behind its first node, a forest has the same links whatever comes before it. -/
theorem mem_links_cons {a : α} {kids rest : Forest α} {l : Link α} :
    l ∈ (Forest.cons a kids rest).links root p o ↔
      l = ⟨a, p, o⟩ ∨ l ∈ kids.links root a root ++ rest.links root p a := List.mem_cons

/-- Taking out the subtree of `c`: what remains and the subtree keep agreeing. -/
theorem agrees_detach {C : Context α} {kids rest : Forest α}
    (hnodup : (C.plug (.cons c kids rest)).labels.Nodup)
    (hroot : root ∉ (C.plug (.cons c kids rest)).labels)
    (hL : Agrees L ((C.plug (.cons c kids rest)).links root root root))
    (hslot : C.slot root root root = (p, o)) :
    Agrees (closeGap c p o L) ((C.plug rest).links root root root) ∧
      Agrees (closeGap c p o L) (kids.links root c root) := by
  have hperm := labels_plug (.cons c kids rest) C
  have hnodup' := List.nodup_append.1 (hperm.nodup_iff.1 hnodup)
  have hc : c ∉ kids.labels ∧ c ∉ rest.labels := by
    have := (List.nodup_cons.1 hnodup'.2.1).1
    simpa [not_or] using this
  have hcC : c ∉ C.labels := fun h => hnodup'.2.2 c h c List.mem_cons_self rfl
  have hcroot : c ≠ root := fun he => hroot (hperm.mem_iff.2 (by simp [← he, Forest.labels]))
  have hmem : ∀ {l}, l ∈ C.links root root root ∨ l ∈ (Forest.cons c kids rest).links root p o →
      L l.label = some (l.parent, l.previous) := fun {l} h =>
    hL l (mem_links_plug.2 (by rwa [hslot]))
  refine ⟨fun l hl => ?_, fun l hl => ?_⟩
  · rcases mem_links_plug.1 hl with hl | hl
    · refine closeGap_of_ne (hmem (.inl hl)) fun _ he => ?_
      rcases (Context.mem_links_cases hl).2 with h | h | h
      · exact hcroot (he ▸ h)
      · exact hcroot (he ▸ h)
      · exact hcC (he ▸ h)
    · rw [hslot] at hl
      cases rest with
      | nil => cases hl
      | cons a k r =>
        have hfirst : (⟨a, p, c⟩ : Link α) ∈ (C.plug (.cons c kids (.cons a k r))).links root root root :=
          mem_links_plug.2 (.inr (by rw [hslot]; simp [Forest.links]))
        rcases mem_links_cons.1 hl with rfl | hl
        · have hne : a ≠ c := fun he => hc.2 (by simp [he, Forest.labels])
          have := hL _ hfirst
          unfold closeGap
          rw [this, Option.map_some, if_pos ⟨hne, rfl⟩]
        · have hl' : l ∈ (Forest.cons c kids (.cons a k r)).links root p o := by
            rw [mem_links_cons, List.mem_append, mem_links_cons]
            exact .inr (.inr (.inr hl))
          refine closeGap_of_ne (hmem (.inr hl')) fun hp he => ?_
          have heq := link_eq_of_slot hnodup hroot hroot hroot
            (mem_links_plug.2 (.inr (by rwa [hslot]))) hfirst hp he
          have hnodupr : a ∉ k.labels ++ r.labels := (List.nodup_cons.1
            (List.nodup_append.1 (List.nodup_cons.1 hnodup'.2.1).2).2.1).1
          refine hnodupr ?_
          rw [← show l.label = a from congrArg Link.label heq]
          exact (List.mem_append.1 hl).elim (fun h => List.mem_append_left _ (label_mem h))
            fun h => List.mem_append_right _ (label_mem h)
  · have hl' : l ∈ (Forest.cons c kids rest).links root p o := by
      rw [mem_links_cons, List.mem_append]
      exact .inr (.inl hl)
    refine closeGap_of_ne (hmem (.inr hl')) fun _ he => ?_
    rcases Forest.mem_links_cases hl with ⟨-, h | h⟩ | ⟨-, h | h⟩
    · exact hcroot (he ▸ h)
    · exact hc.1 (he ▸ h)
    · exact hcroot (he ▸ h)
    · exact hc.1 (he ▸ h)

/-- A place that the links name is a place in the forest, and pasting there is plugging. -/
theorem exists_slot (hnodup : F.labels.Nodup) (hroot : root ∉ F.labels)
    (hL : Agrees L (F.links root root root)) (hp : p = root ∨ p ∈ F.labels)
    (ho : o = root ∨ o ∈ F.labels ∧ ∃ q, L o = some (p, q)) :
    ∃ C S, F = plug C S ∧ C.slot root root root = (p, o) ∧ ∀ (c : α) (kids : Forest α),
      (plug C (.cons c kids S)).outline 0 =
        pasteTree root p o id ((c, 0) :: kids.outline 1) (F.outline 0) := by
  by_cases horoot : o = root
  · subst horoot
    by_cases hproot : p = o
    · subst hproot
      refine ⟨hole, F, rfl, rfl, fun c kids => ?_⟩
      unfold pasteTree
      rw [if_neg (not_not.2 rfl), if_neg (not_not.2 rfl)]
      rfl
    · obtain ⟨D, k, r, rfl⟩ := exists_plug (hp.resolve_left hproot)
      refine ⟨D.comp (inKids p hole r), k, by rw [plug_comp]; rfl, by rw [slot_comp]; rfl,
        fun c kids => ?_⟩
      unfold pasteTree
      rw [if_neg (not_not.2 rfl), if_pos hproot, plug_comp]
      exact (pasteUnder_plug hnodup).symm
  · obtain ⟨hmem, q, hq⟩ := ho.resolve_left horoot
    obtain ⟨D, k, r, rfl⟩ := exists_plug hmem
    have hlink := hL _ (mem_links_plug.2 (.inr (by
      rw [mem_links_cons]; exact .inl rfl)) : (⟨o, (D.slot root root root).1,
        (D.slot root root root).2⟩ : Link α) ∈ _)
    have hparent : (D.slot root root root).1 = p := by
      rw [hq] at hlink
      exact (congrArg Prod.fst (Option.some.inj hlink)).symm
    refine ⟨D.comp (inRest o k hole), r, by rw [plug_comp]; rfl, ?_, fun c kids => ?_⟩
    · rw [slot_comp, hparent]; rfl
    · unfold pasteTree
      rw [if_pos horoot, plug_comp]
      exact (pasteAfter_plug hnodup).symm

/-- Putting the subtree of `c` at a place: the relinked places agree with the new forest. -/
theorem exists_attach {kids : Forest α} (hnodup : (c :: (kids.labels ++ F.labels)).Nodup)
    (hroot : root ∉ c :: (kids.labels ++ F.labels)) (hF : Agrees L (F.links root root root))
    (hkids : Agrees L (kids.links root c root)) (hp : p = root ∨ p ∈ F.labels)
    (ho : o = root ∨ o ∈ F.labels ∧ ∃ q, L o = some (p, q)) :
    ∃ F' : Forest α, F'.labels.Perm (c :: (kids.labels ++ F.labels)) ∧
      Agrees (Function.update (openGap c p o L) c (some (p, o))) (F'.links root root root) ∧
      F'.outline 0 = pasteTree root p o id ((c, 0) :: kids.outline 1) (F.outline 0) := by
  obtain ⟨hc, hrest⟩ := List.nodup_cons.1 hnodup
  obtain ⟨-, hnodupF, hdisjoint⟩ := List.nodup_append.1 hrest
  simp only [List.mem_cons, List.mem_append, not_or] at hc hroot
  obtain ⟨C, S, rfl, hslot, houtline⟩ := exists_slot hnodupF hroot.2.2 hF hp ho
  have hperm : (plug C (.cons c kids S)).labels.Perm (c :: (kids.labels ++ (plug C S).labels)) := by
    refine (labels_plug _ C).trans (List.perm_middle.trans (.cons c ?_))
    refine List.Perm.trans ?_ ((labels_plug S C).symm.append_left _)
    rw [← List.append_assoc, ← List.append_assoc]
    exact List.perm_append_comm.append_right _
  have hrootF' : root ∉ (plug C (.cons c kids S)).labels := fun h => by
    simpa [hroot] using hperm.mem_iff.1 h
  have hfirst : (⟨c, p, o⟩ : Link α) ∈ (plug C (.cons c kids S)).links root root root :=
    mem_links_plug.2 (.inr (by rw [hslot, mem_links_cons]; exact .inl rfl))
  -- a node that was in the forest and does not take the place of `c` keeps its link
  have hkeep : ∀ l : Link α, l ∈ (plug C (.cons c kids S)).links root root root →
      l ∈ (plug C S).links root root root →
      Function.update (openGap c p o L) c (some (p, o)) l.label = some (l.parent, l.previous) := by
    intro l hl' hl
    have hne : l.label ≠ c := fun he => hc.2 (he ▸ label_mem hl)
    rw [Function.update_of_ne hne]
    refine openGap_of_ne (hF l hl) fun hparent hprevious => hne ?_
    have heq := link_eq_of_slot (hperm.nodup_iff.2 hnodup) hrootF' hrootF' hrootF' hl' hfirst
      hparent hprevious
    rw [heq]
  refine ⟨plug C (.cons c kids S), hperm, fun l hl => ?_, houtline c kids⟩
  rcases mem_links_plug.1 hl with h | h
  · exact hkeep l hl (mem_links_plug.2 (.inl h))
  rw [hslot, mem_links_cons, List.mem_append] at h
  rcases h with rfl | h | h
  · exact Function.update_self ..
  · have hne : l.label ≠ c := fun he => hc.1 (he ▸ label_mem h)
    rw [Function.update_of_ne hne]
    refine openGap_of_ne (hkids l h) fun he _ => ?_
    have hparent : l.parent = c ∨ l.parent ∈ kids.labels :=
      (Forest.mem_links_cases h).imp And.left And.left
    rcases hp with hp | hp <;> rcases hparent with hparent | hparent
    · exact hroot.1 (by rw [← hp, ← he, hparent])
    · exact hroot.2.1 (by rw [← hp, ← he]; exact hparent)
    · exact hc.2 (by rw [← hparent, he]; exact hp)
    · exact hdisjoint _ hparent _ (he ▸ hp) rfl
  · cases S with
    | nil => cases h
    | cons a k r =>
      rw [mem_links_cons] at h
      have hold : ∀ l, l = (⟨a, p, o⟩ : Link α) ∨ l ∈ k.links root a root ++ r.links root p a →
          l ∈ (plug C (.cons a k r)).links root root root := fun l hl =>
        mem_links_plug.2 (.inr (by rw [hslot, mem_links_cons]; exact hl))
      rcases h with rfl | h
      · have hne : a ≠ c := fun he => hc.2 (he ▸ label_mem (hold ⟨a, p, o⟩ (.inl rfl)))
        have := hF _ (hold ⟨a, p, o⟩ (.inl rfl))
        rw [Function.update_of_ne hne, openGap, this, Option.map_some, if_pos ⟨hne, rfl⟩]
      · exact hkeep l hl (hold l (.inr h))

/-- **Inserting** a node. -/
theorem Represents.insert (h : Represents root L F) (hc : c ∉ F.labels) (hcroot : c ≠ root)
    (hp : p = root ∨ p ∈ F.labels) (ho : o = root ∨ ∃ q, L o = some (p, q)) :
    ∃ F', Represents root (Function.update (openGap c p o L) c (some (p, o))) F' ∧
      F'.outline 0 = pasteTree root p o id [(c, 0)] (F.outline 0) := by
  obtain ⟨F', hperm, hagrees, houtline⟩ := exists_attach (c := c)
    (show (c :: ((Forest.nil : Forest α).labels ++ F.labels)).Nodup from
      List.nodup_cons.2 ⟨hc, h.nodup⟩)
    (fun hm => (List.mem_cons.1 hm).elim (fun he => hcroot he.symm) h.root_notMem)
    h.agrees (show Agrees L ((Forest.nil : Forest α).links root c root) from nofun) hp
    (ho.imp id fun ⟨q, hq⟩ => ⟨h.mem_of_some _ _ hq, q, hq⟩)
  refine ⟨F', ⟨hperm.nodup_iff.2 (List.nodup_cons.2 ⟨hc, h.nodup⟩), fun hm => ?_, hagrees,
    fun a s ha => hperm.mem_iff.2 ?_⟩, houtline⟩
  · exact (List.mem_cons.1 (hperm.mem_iff.1 hm)).elim (fun he => hcroot he.symm) h.root_notMem
  · by_cases hac : a = c
    · exact List.mem_cons.2 (.inl hac)
    · rw [Function.update_of_ne hac, openGap, Option.map_eq_some_iff] at ha
      obtain ⟨t, ht, -⟩ := ha
      exact List.mem_cons_of_mem _ (h.mem_of_some a t ht)

omit [DecidableEq α] in
/-- The subtree of a node of the forest. -/
theorem Represents.exists_plug (h : Represents root L F) (hc : L c = some (p, o)) :
    ∃ C kids rest, F = plug C (.cons c kids rest) ∧ C.slot root root root = (p, o) := by
  obtain ⟨C, kids, rest, rfl⟩ := Context.exists_plug (h.mem_of_some c _ hc)
  refine ⟨C, kids, rest, rfl, ?_⟩
  have hlink := h.agrees ⟨c, (C.slot root root root).1, (C.slot root root root).2⟩
    (mem_links_plug.2 (.inr (by rw [mem_links_cons]; exact .inl rfl)))
  rw [hc] at hlink
  exact (Option.some.inj hlink).symm

omit [DecidableEq α] in
/-- No two nodes stand at the same place. -/
theorem Represents.slot_unique (h : Represents root L F) {a b : α} {s : α × α} (ha : L a = some s)
    (hb : L b = some s) : a = b := by
  obtain ⟨l, hl, rfl⟩ := exists_link (r := root) (p := root) (o := root) (h.mem_of_some a s ha)
  obtain ⟨m, hm, rfl⟩ := exists_link (r := root) (p := root) (o := root) (h.mem_of_some b s hb)
  have hlm : (l.parent, l.previous) = (m.parent, m.previous) :=
    Option.some.inj (((h.agrees l hl).symm.trans ha).trans (hb.symm.trans (h.agrees m hm)))
  rw [link_eq_of_slot h.nodup h.root_notMem h.root_notMem h.root_notMem hl hm
    (congrArg Prod.fst hlm) (congrArg Prod.snd hlm)]

/-- The gap closes onto the place of `c` alone, so no two other nodes come to stand there. -/
theorem Represents.slot_unique_closeGap (h : Represents root L F) (hc : L c = some (p, o)) {a b : α}
    {s : α × α} (hac : a ≠ c) (hbc : b ≠ c) (ha : closeGap c p o L a = some s)
    (hb : closeGap c p o L b = some s) : a = b := by
  have hcases : ∀ j, j ≠ c → closeGap c p o L j = some s →
      L j = some s ∨ L j = some (p, c) ∧ s = (p, o) := by
    intro j hj hs
    rw [closeGap, Option.map_eq_some_iff] at hs
    obtain ⟨t, ht, rfl⟩ := hs
    split_ifs with hgap
    · exact .inr ⟨hgap.2 ▸ ht, rfl⟩
    · exact .inl ht
  rcases hcases a hac ha with ha' | ⟨ha', hs⟩ <;> rcases hcases b hbc hb with hb' | ⟨hb', hs'⟩
  · exact h.slot_unique ha' hb'
  · exact absurd (h.slot_unique (hs' ▸ ha') hc) hac
  · exact absurd (h.slot_unique (hs ▸ hb') hc) hbc
  · exact h.slot_unique ha' hb'

/-- **Removing** a node without children. -/
theorem Represents.remove (h : Represents root L F) (hc : L c = some (p, o))
    (hleaf : ∀ j q, L j ≠ some (c, q)) :
    ∃ F', Represents root (Function.update (closeGap c p o L) c none) F' ∧
      F'.outline 0 = (F.outline 0).filter (·.1 ≠ c) := by
  obtain ⟨C, kids, rest, rfl, hslot⟩ := h.exists_plug hc
  obtain rfl : kids = .nil := by
    cases kids with
    | nil => rfl
    | cons b k r =>
      refine absurd (h.agrees ⟨b, c, root⟩ (mem_links_plug.2 (.inr ?_))) (hleaf b root)
      simp [Forest.links]
  have hperm : (plug C (.cons c .nil rest)).labels.Perm (c :: (plug C rest).labels) :=
    (labels_plug _ C).trans (List.perm_middle.trans (.cons c (labels_plug rest C).symm))
  have hnodup := List.nodup_cons.1 (hperm.nodup_iff.1 h.nodup)
  have hagrees := (agrees_detach h.nodup h.root_notMem h.agrees hslot).1
  refine ⟨plug C rest, ⟨hnodup.2, fun hm => ?_, fun l hl => ?_, fun a s ha => ?_⟩,
    (filter_outline_plug hnodup.1).symm⟩
  · exact h.root_notMem (hperm.mem_iff.2 (List.mem_cons_of_mem _ hm))
  · have hne : l.label ≠ c := fun he => hnodup.1 (he ▸ label_mem hl)
    rw [Function.update_of_ne hne]
    exact hagrees l hl
  · by_cases hac : a = c
    · rw [hac, Function.update_self] at ha
      cases ha
    · rw [Function.update_of_ne hac, closeGap, Option.map_eq_some_iff] at ha
      obtain ⟨t, ht, -⟩ := ha
      exact (List.mem_cons.1 (hperm.mem_iff.1 (h.mem_of_some a t ht))).resolve_left hac

/-- **Moving** a subtree to a place outside itself. -/
theorem Represents.move {p' o' : α} (h : Represents root L F) (hc : L c = some (p, o))
    (hp : p' = root ∨ p' ∈ F.labels) (hout : ∀ e ∈ subtree (· = c) (F.outline 0), e.1 ≠ p')
    (hne : o' ≠ c) (ho : o' = root ∨ ∃ q, L o' = some (p', q)) :
    ∃ F', Represents root (Function.update (openGap c p' o' (closeGap c p o L)) c (some (p', o'))) F' ∧
      F'.outline 0 = pasteTree root p' o' id (subtree (· = c) (F.outline 0))
        (cutTree (· = c) (F.outline 0)) := by
  obtain ⟨C, kids, rest, rfl, hslot⟩ := h.exists_plug hc
  obtain ⟨hrest, hkids⟩ := agrees_detach h.nodup h.root_notMem h.agrees hslot
  rw [subtree_plug h.nodup] at hout ⊢
  rw [cutTree_plug h.nodup]
  have hperm : (plug C (.cons c kids rest)).labels.Perm
      (c :: (kids.labels ++ (plug C rest).labels)) := by
    refine (labels_plug _ C).trans (List.perm_middle.trans (.cons c ?_))
    refine List.Perm.trans ?_ ((labels_plug rest C).symm.append_left _)
    rw [← List.append_assoc, ← List.append_assoc]
    exact List.perm_append_comm.append_right _
  have hnodup := hperm.nodup_iff.1 h.nodup
  have hroot : root ∉ c :: (kids.labels ++ (plug C rest).labels) := fun hm =>
    h.root_notMem (hperm.mem_iff.2 hm)
  have hpc : p' ≠ c := fun he => hout _ List.mem_cons_self he.symm
  have hpkids : p' ∉ kids.labels := fun hm => by
    rw [← map_fst_outline 1 kids] at hm
    obtain ⟨e, he, rfl⟩ := List.mem_map.1 hm
    exact hout e (List.mem_cons_of_mem _ he) rfl
  have hp' : p' = root ∨ p' ∈ (plug C rest).labels := hp.imp id fun hm =>
    ((List.mem_append.1 ((List.mem_cons.1 (hperm.mem_iff.1 hm)).resolve_left hpc)).resolve_left
      hpkids)
  have ho' : o' = root ∨ o' ∈ (plug C rest).labels ∧ ∃ q, closeGap c p o L o' = some (p', q) := by
    refine ho.imp id fun ⟨q, hq⟩ => ⟨?_, ?_⟩
    · have hm := (List.mem_cons.1 (hperm.mem_iff.1 (h.mem_of_some o' _ hq))).resolve_left hne
      refine (List.mem_append.1 hm).resolve_left fun hk => ?_
      obtain ⟨l, hl, rfl⟩ := exists_link (r := root) (p := c) (o := root) hk
      have hlink := h.agrees l (mem_links_plug.2 (.inr (by
        rw [mem_links_cons, List.mem_append]; exact .inr (.inl hl))))
      rw [hq] at hlink
      have hparent : p' = l.parent := congrArg Prod.fst (Option.some.inj hlink)
      rcases Forest.mem_links_cases hl with ⟨h1, -⟩ | ⟨h1, -⟩
      · exact hpc (hparent.trans h1)
      · exact hpkids (hparent ▸ h1)
    · unfold closeGap
      rw [hq, Option.map_some]
      split_ifs with hs
      · exact ⟨o, by rw [(Prod.mk.inj hs.2).1]⟩
      · exact ⟨q, rfl⟩
  obtain ⟨F', hperm', hagrees, houtline⟩ := exists_attach hnodup hroot hrest hkids hp' ho'
  refine ⟨F', ⟨hperm'.nodup_iff.2 hnodup, fun hm => hroot (hperm'.mem_iff.1 hm), hagrees,
    fun a s ha => hperm'.mem_iff.2 ?_⟩, houtline⟩
  by_cases hac : a = c
  · exact List.mem_cons.2 (.inl hac)
  · rw [Function.update_of_ne hac, openGap, Option.map_eq_some_iff] at ha
    obtain ⟨t, ht, -⟩ := ha
    rw [closeGap, Option.map_eq_some_iff] at ht
    obtain ⟨u, hu, -⟩ := ht
    exact hperm.mem_iff.1 (h.mem_of_some a u hu)

end Links

end OrderedForest
