import Mathlib.Data.List.Sort
import Mathlib.Data.Finset.Card
import Mathlib.Tactic

/-!
# Maps ordered by key

A finite map kept as its list of entries in increasing key order, which is the order in which a
loop over it visits them. The order is a field, so keys never repeat. A map is known by its
lookups (`ext`); every operation has one lemma that says what it does to them.
-/

/-- A finite map as its entries in strictly increasing key order. -/
structure OrderedMap (κ β : Type*) [LinearOrder κ] where
  entries : List (κ × β)
  sorted : entries.Pairwise (fun a b => a.1 < b.1)
  deriving DecidableEq

namespace OrderedMap

variable {κ β γ : Type*} [LinearOrder κ]

/-! ## Operations -/

/-- The map without entries. -/
def empty : OrderedMap κ β := ⟨[], List.Pairwise.nil⟩

instance : EmptyCollection (OrderedMap κ β) := ⟨empty⟩
instance : Inhabited (OrderedMap κ β) := ⟨empty⟩

/-- The value stored under `k`. -/
def find? (m : OrderedMap κ β) (k : κ) : Option β :=
  (m.entries.find? fun e => e.1 = k).map Prod.snd

def contains (m : OrderedMap κ β) (k : κ) : Bool := (m.find? k).isSome

def size (m : OrderedMap κ β) : ℕ := m.entries.length

/-- The keys, in order. -/
def keys (m : OrderedMap κ β) : List κ := m.entries.map Prod.fst

/-- The values, in key order. -/
def values (m : OrderedMap κ β) : List β := m.entries.map Prod.snd

/-- Put an entry at its place, over an entry of the same key. -/
def insertEntry (k : κ) (v : β) : List (κ × β) → List (κ × β)
  | [] => [(k, v)]
  | e :: l =>
    if k < e.1 then (k, v) :: e :: l
    else if k = e.1 then (k, v) :: l
    else e :: insertEntry k v l

theorem mem_insertEntry {k : κ} {v : β} {a : κ × β} :
    ∀ {l : List (κ × β)}, a ∈ insertEntry k v l → a = (k, v) ∨ a ∈ l
  | [], h => by simpa [insertEntry] using h
  | e :: l, h => by
    rw [insertEntry] at h
    split_ifs at h
    · simpa using h
    · rcases List.mem_cons.1 h with h | h
      · exact .inl h
      · exact .inr (List.mem_cons_of_mem _ h)
    · rcases List.mem_cons.1 h with rfl | h
      · exact .inr List.mem_cons_self
      · exact (mem_insertEntry h).imp_right (List.mem_cons_of_mem _)

theorem sorted_insertEntry (k : κ) (v : β) :
    ∀ {l : List (κ × β)}, l.Pairwise (fun a b => a.1 < b.1) →
      (insertEntry k v l).Pairwise (fun a b => a.1 < b.1)
  | [], _ => by simp [insertEntry]
  | e :: l, h => by
    obtain ⟨he, hl⟩ := List.pairwise_cons.1 h
    rw [insertEntry]
    split_ifs with h1 h2
    · refine List.pairwise_cons.2 ⟨fun a ha => ?_, h⟩
      rcases List.mem_cons.1 ha with rfl | ha
      · exact h1
      · exact h1.trans (he a ha)
    · exact List.pairwise_cons.2 ⟨fun a ha => h2 ▸ he a ha, hl⟩
    · refine List.pairwise_cons.2 ⟨fun a ha => ?_, sorted_insertEntry k v hl⟩
      rcases mem_insertEntry ha with rfl | ha
      · exact lt_of_le_of_ne (not_lt.1 h1) (Ne.symm h2)
      · exact he a ha

/-- Store `v` under `k`, over an older value. -/
def insert (m : OrderedMap κ β) (k : κ) (v : β) : OrderedMap κ β :=
  ⟨insertEntry k v m.entries, sorted_insertEntry k v m.sorted⟩

/-- Drop the entry of `k`. -/
def erase (m : OrderedMap κ β) (k : κ) : OrderedMap κ β :=
  ⟨m.entries.filter fun e => e.1 ≠ k, m.sorted.filter _⟩

/-- Keep the entries that satisfy `p`. -/
def filter (m : OrderedMap κ β) (p : κ → β → Bool) : OrderedMap κ β :=
  ⟨m.entries.filter fun e => p e.1 e.2, m.sorted.filter _⟩

/-- Rewrite every value. -/
def mapValues (m : OrderedMap κ β) (f : κ → β → γ) : OrderedMap κ γ :=
  ⟨m.entries.map fun e => (e.1, f e.1 e.2), by
    rw [List.pairwise_map]; exact m.sorted⟩

/-- Rewrite the first value, in key order, that satisfies `p`. -/
def modifyFirstEntry (p : κ → β → Bool) (f : β → β) : List (κ × β) → List (κ × β)
  | [] => []
  | e :: l => if p e.1 e.2 then (e.1, f e.2) :: l else e :: modifyFirstEntry p f l

omit [LinearOrder κ] in
theorem map_fst_modifyFirstEntry (p : κ → β → Bool) (f : β → β) :
    ∀ l : List (κ × β), (modifyFirstEntry p f l).map Prod.fst = l.map Prod.fst
  | [] => rfl
  | e :: l => by
    rw [modifyFirstEntry]
    split_ifs
    · rfl
    · rw [List.map_cons, List.map_cons, map_fst_modifyFirstEntry p f l]

theorem sorted_iff_map_fst {l : List (κ × β)} :
    l.Pairwise (fun a b => a.1 < b.1) ↔ (l.map Prod.fst).Pairwise (· < ·) :=
  List.pairwise_map.symm

/-- Rewrite the first value, in key order, that satisfies `p`. -/
def modifyFirst (m : OrderedMap κ β) (p : κ → β → Bool) (f : β → β) : OrderedMap κ β :=
  ⟨modifyFirstEntry p f m.entries, by
    rw [sorted_iff_map_fst, map_fst_modifyFirstEntry, ← sorted_iff_map_fst]; exact m.sorted⟩

/-! ## Lookups -/

theorem find?_eq_some_iff {m : OrderedMap κ β} {k : κ} {v : β} :
    m.find? k = some v ↔ (k, v) ∈ m.entries := by
  unfold find?
  constructor
  · intro h
    obtain ⟨e, he, rfl⟩ := Option.map_eq_some_iff.1 h
    have hk : e.1 = k := by simpa using List.find?_some he
    subst hk
    exact List.mem_of_find?_eq_some he
  · obtain ⟨l, hl⟩ := m
    intro h
    induction l with
    | nil => simp at h
    | cons e l ih =>
      obtain ⟨he, hl'⟩ := List.pairwise_cons.1 hl
      rcases List.mem_cons.1 h with rfl | h
      · simp
      · have hne : e.1 ≠ k := (he _ h).ne
        rw [List.find?_cons_of_neg (by simpa using hne)]
        exact ih hl' h

theorem contains_iff {m : OrderedMap κ β} {k : κ} :
    m.contains k = true ↔ ∃ v, m.find? k = some v := by
  unfold contains; exact Option.isSome_iff_exists

theorem contains_eq_false_iff {m : OrderedMap κ β} {k : κ} :
    m.contains k = false ↔ m.find? k = none := by
  unfold contains; simp

theorem mem_keys_iff {m : OrderedMap κ β} {k : κ} : k ∈ m.keys ↔ ∃ v, m.find? k = some v := by
  simp [keys, find?_eq_some_iff]

theorem nodup_keys (m : OrderedMap κ β) : m.keys.Nodup :=
  (sorted_iff_map_fst.1 m.sorted).imp fun h => h.ne

theorem size_eq_card_keys (m : OrderedMap κ β) : m.size = m.keys.toFinset.card := by
  rw [List.toFinset_card_of_nodup m.nodup_keys]; simp [size, keys]

@[ext] theorem ext {m n : OrderedMap κ β} (h : ∀ k, m.find? k = n.find? k) : m = n := by
  obtain ⟨l, hl⟩ := m
  obtain ⟨l', hl'⟩ := n
  have hmem : ∀ e, e ∈ l ↔ e ∈ l' := fun e => by
    have := h e.1
    rw [Option.ext_iff] at this
    simpa [find?_eq_some_iff] using this e.2
  have hp : l.Perm l' := (List.perm_ext_iff_of_nodup
    (hl.imp fun h => fun e => h.ne (by rw [e])) (hl'.imp fun h => fun e => h.ne (by rw [e]))).2 hmem
  have : l = l' := hp.eq_of_pairwise (fun a b _ _ hab hba => absurd hab hba.asymm) hl hl'
  subst this; rfl

@[simp] theorem find?_empty (k : κ) : (∅ : OrderedMap κ β).find? k = none := rfl

@[simp] theorem contains_empty (k : κ) : (∅ : OrderedMap κ β).contains k = false := rfl

@[simp] theorem size_empty : (∅ : OrderedMap κ β).size = 0 := rfl

theorem mem_insertEntry_iff {k : κ} {v : β} {a : κ × β} {l : List (κ × β)}
    (hl : l.Pairwise (fun a b => a.1 < b.1)) :
    a ∈ insertEntry k v l ↔ a = (k, v) ∨ (a ∈ l ∧ a.1 ≠ k) := by
  induction l with
  | nil => simp [insertEntry]
  | cons e l ih =>
    obtain ⟨he, hl'⟩ := List.pairwise_cons.1 hl
    rw [insertEntry]
    split_ifs with h1 h2
    · have : ∀ b ∈ e :: l, b.1 ≠ k := fun b hb => by
        rcases List.mem_cons.1 hb with rfl | hb
        · exact h1.ne'
        · exact (h1.trans (he b hb)).ne'
      rw [List.mem_cons]
      exact or_congr_right ⟨fun h => ⟨h, this a h⟩, fun h => h.1⟩
    · have : ∀ b ∈ l, b.1 ≠ k := fun b hb => by rw [h2]; exact (he b hb).ne'
      rw [List.mem_cons, List.mem_cons]
      constructor
      · rintro (h | h)
        · exact .inl h
        · exact .inr ⟨.inr h, this a h⟩
      · rintro (h | ⟨rfl | h, hne⟩)
        · exact .inl h
        · exact absurd h2.symm hne
        · exact .inr h
    · rw [List.mem_cons, List.mem_cons, ih hl']
      constructor
      · rintro (rfl | h | h)
        · exact .inr ⟨.inl rfl, fun h => h2 h.symm⟩
        · exact .inl h
        · exact .inr ⟨.inr h.1, h.2⟩
      · rintro (h | ⟨h | h, hne⟩)
        · exact .inr (.inl h)
        · exact .inl h
        · exact .inr (.inr ⟨h, hne⟩)

theorem find?_insert (m : OrderedMap κ β) (k : κ) (v : β) (j : κ) :
    (m.insert k v).find? j = if j = k then some v else m.find? j := by
  ext w
  rw [find?_eq_some_iff]
  show (j, w) ∈ insertEntry k v m.entries ↔ _
  rw [mem_insertEntry_iff m.sorted]
  by_cases h : j = k
  · subst h; simp [eq_comm]
  · simp [h, find?_eq_some_iff]

@[simp] theorem find?_insert_self (m : OrderedMap κ β) (k : κ) (v : β) :
    (m.insert k v).find? k = some v := by rw [find?_insert, if_pos rfl]

theorem find?_insert_of_ne (m : OrderedMap κ β) {k j : κ} (v : β) (h : j ≠ k) :
    (m.insert k v).find? j = m.find? j := by rw [find?_insert, if_neg h]

theorem find?_filter (m : OrderedMap κ β) (p : κ → β → Bool) (j : κ) :
    (m.filter p).find? j = (m.find? j).filter (p j) := by
  ext w
  rw [find?_eq_some_iff, Option.filter_eq_some_iff, find?_eq_some_iff]
  exact List.mem_filter

theorem find?_erase (m : OrderedMap κ β) (k j : κ) :
    (m.erase k).find? j = if j = k then none else m.find? j := by
  ext w
  rw [find?_eq_some_iff]
  show (j, w) ∈ m.entries.filter _ ↔ _
  rw [List.mem_filter]
  by_cases h : j = k
  · simp [h]
  · simp [h, find?_eq_some_iff]

@[simp] theorem find?_erase_self (m : OrderedMap κ β) (k : κ) : (m.erase k).find? k = none := by
  rw [find?_erase, if_pos rfl]

theorem find?_erase_of_ne (m : OrderedMap κ β) {k j : κ} (h : j ≠ k) :
    (m.erase k).find? j = m.find? j := by rw [find?_erase, if_neg h]

@[simp] theorem find?_mapValues (m : OrderedMap κ β) (f : κ → β → γ) (j : κ) :
    (m.mapValues f).find? j = (m.find? j).map (f j) := by
  ext w
  rw [find?_eq_some_iff]
  show (j, w) ∈ m.entries.map _ ↔ _
  rw [List.mem_map, Option.map_eq_some_iff]
  constructor
  · rintro ⟨⟨a, b⟩, hab, he⟩
    simp only [Prod.mk.injEq] at he
    obtain ⟨rfl, rfl⟩ := he
    exact ⟨b, find?_eq_some_iff.2 hab, rfl⟩
  · rintro ⟨b, hb, rfl⟩
    exact ⟨(j, b), find?_eq_some_iff.1 hb, rfl⟩

/-! ## Sizes -/

theorem toFinset_keys_insert (m : OrderedMap κ β) (k : κ) (v : β) :
    (m.insert k v).keys.toFinset = Insert.insert k m.keys.toFinset := by
  ext j
  simp only [List.mem_toFinset, mem_keys_iff, Finset.mem_insert, find?_insert]
  by_cases hj : j = k <;> simp [hj]

theorem size_insert_of_find?_none {m : OrderedMap κ β} {k : κ} (v : β) (h : m.find? k = none) :
    (m.insert k v).size = m.size + 1 := by
  rw [size_eq_card_keys, size_eq_card_keys, toFinset_keys_insert,
    Finset.card_insert_of_notMem]
  rw [List.mem_toFinset, mem_keys_iff, h]
  rintro ⟨_, h⟩
  cases h

theorem size_erase_of_find? {m : OrderedMap κ β} {k : κ} {v : β} (h : m.find? k = some v) :
    (m.erase k).size + 1 = m.size := by
  have hk : (m.erase k).keys.toFinset = m.keys.toFinset.erase k := by
    ext j
    simp only [List.mem_toFinset, mem_keys_iff, Finset.mem_erase, find?_erase]
    by_cases hj : j = k <;> simp [hj]
  rw [size_eq_card_keys, size_eq_card_keys, hk]
  exact Finset.card_erase_add_one (List.mem_toFinset.2 (mem_keys_iff.2 ⟨v, h⟩))

theorem size_erase_le (m : OrderedMap κ β) (k : κ) : (m.erase k).size ≤ m.size :=
  List.length_filter_le _ _

/-- A map has at most as many entries as a set that holds all its keys. -/
theorem size_le_card {m : OrderedMap κ β} {S : Finset κ}
    (h : ∀ k v, m.find? k = some v → k ∈ S) : m.size ≤ S.card := by
  rw [size_eq_card_keys]
  refine Finset.card_le_card fun k hk => ?_
  obtain ⟨v, hv⟩ := mem_keys_iff.1 (List.mem_toFinset.1 hk)
  exact h k v hv

@[simp] theorem size_mapValues (m : OrderedMap κ β) (f : κ → β → γ) :
    (m.mapValues f).size = m.size := by simp [size, mapValues]

/-! ## Rewriting the first match -/

theorem modifyFirstEntry_eq_map {p : κ → β → Bool} {f : β → β} :
    ∀ {l : List (κ × β)}, l.Pairwise (fun a b => a.1 < b.1) →
      (∀ a ∈ l, ∀ b ∈ l, p a.1 a.2 → p b.1 b.2 → a.1 = b.1) →
      modifyFirstEntry p f l = l.map fun e => (e.1, if p e.1 e.2 then f e.2 else e.2)
  | [], _, _ => rfl
  | e :: l, hl, hu => by
    obtain ⟨he, hl'⟩ := List.pairwise_cons.1 hl
    rw [modifyFirstEntry, List.map_cons]
    by_cases hp : p e.1 e.2
    · have hrest : ∀ b ∈ l, ¬ p b.1 b.2 := fun b hb hb' => (he b hb).ne
        (hu e List.mem_cons_self b (List.mem_cons_of_mem _ hb) hp hb')
      rw [if_pos hp, if_pos hp]
      congr 1
      conv_lhs => rw [← List.map_id l]
      refine List.map_congr_left fun b hb => ?_
      rw [if_neg (hrest b hb)]; rfl
    · rw [if_neg hp, if_neg hp, modifyFirstEntry_eq_map hl' fun a ha b hb =>
        hu a (List.mem_cons_of_mem _ ha) b (List.mem_cons_of_mem _ hb)]

/-- Where at most one entry satisfies `p`, the scan that stops at the first match rewrites it. -/
theorem find?_modifyFirst {m : OrderedMap κ β} {p : κ → β → Bool} (f : β → β)
    (hu : ∀ k v k' v', m.find? k = some v → p k v → m.find? k' = some v' → p k' v' → k = k')
    (j : κ) :
    (m.modifyFirst p f).find? j = (m.find? j).map fun v => if p j v then f v else v := by
  have h : m.modifyFirst p f = m.mapValues fun k v => if p k v then f v else v := by
    have := modifyFirstEntry_eq_map (f := f) m.sorted fun a ha b hb ha' hb' =>
      hu a.1 a.2 b.1 b.2 (find?_eq_some_iff.2 ha) ha' (find?_eq_some_iff.2 hb) hb'
    unfold modifyFirst mapValues
    congr
  rw [h, find?_mapValues]

end OrderedMap
