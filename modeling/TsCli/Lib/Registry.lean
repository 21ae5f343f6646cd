import TsCli.Lib.OrderedMap

/-!
# Maps whose values know their key

A registry stores each value under the key that the value itself carries. The condition is a field,
so every operation shows that it keeps it, and a lookup by key finds a value of that key.
-/

/-- A map that stores every value under `key value`. -/
structure Registry {κ β : Type*} [LinearOrder κ] (key : β → κ) where
  map : OrderedMap κ β
  keyed : ∀ k v, map.find? k = some v → key v = k
  deriving DecidableEq

namespace Registry

variable {κ β : Type*} [LinearOrder κ] {key : β → κ}

instance : EmptyCollection (Registry key) := ⟨⟨∅, nofun⟩⟩

def find? (r : Registry key) (k : κ) : Option β := r.map.find? k

def contains (r : Registry key) (k : κ) : Bool := r.map.contains k

def size (r : Registry key) : ℕ := r.map.size

def values (r : Registry key) : List β := r.map.values

/-- Store a value, over an older value of its key. -/
def upsert (r : Registry key) (v : β) : Registry key where
  map := r.map.insert (key v) v
  keyed k w h := by
    rw [OrderedMap.find?_insert] at h
    split_ifs at h with hk
    · cases h; exact hk.symm
    · exact r.keyed k w h

def erase (r : Registry key) (k : κ) : Registry key where
  map := r.map.erase k
  keyed j w h := by
    rw [OrderedMap.find?_erase] at h
    split_ifs at h
    exact r.keyed j w h

/-- Keep the values that satisfy `p`. -/
def filter (r : Registry key) (p : β → Bool) : Registry key where
  map := r.map.filter fun _ v => p v
  keyed k w h := by
    rw [OrderedMap.find?_filter] at h
    exact r.keyed k w (Option.filter_eq_some_iff.1 h).1

/-- Rewrite every value, under its key. -/
def mapValues (r : Registry key) (f : κ → β → β) (hf : ∀ k v, key (f k v) = key v) :
    Registry key where
  map := r.map.mapValues f
  keyed k w h := by
    rw [OrderedMap.find?_mapValues, Option.map_eq_some_iff] at h
    obtain ⟨v, hv, rfl⟩ := h
    rw [hf, r.keyed k v hv]

/-- Rewrite the value of one key. -/
def modify (r : Registry key) (k : κ) (f : β → β) (hf : ∀ v, key (f v) = key v) : Registry key :=
  r.mapValues (fun j v => if j = k then f v else v) fun j v => by
    split_ifs
    · exact hf v
    · rfl

theorem find?_modifyFirst_cases {m : OrderedMap κ β} {p : κ → β → Bool} {f : β → β} {k : κ} {w : β}
    (h : (m.modifyFirst p f).find? k = some w) : ∃ v, m.find? k = some v ∧ (w = v ∨ w = f v) := by
  have hentries : ∀ {l : List (κ × β)} {e : κ × β}, e ∈ OrderedMap.modifyFirstEntry p f l →
      ∃ v, (e.1, v) ∈ l ∧ (e.2 = v ∨ e.2 = f v) := by
    intro l
    induction l with
    | nil => intro e he; cases he
    | cons a l ih =>
      intro e he
      rw [OrderedMap.modifyFirstEntry] at he
      split_ifs at he
      · rcases List.mem_cons.1 he with rfl | he
        · exact ⟨a.2, List.mem_cons_self, .inr rfl⟩
        · exact ⟨e.2, List.mem_cons_of_mem _ he, .inl rfl⟩
      · rcases List.mem_cons.1 he with rfl | he
        · exact ⟨e.2, List.mem_cons_self, .inl rfl⟩
        · obtain ⟨v, hv, h⟩ := ih he
          exact ⟨v, List.mem_cons_of_mem _ hv, h⟩
  obtain ⟨v, hv, h⟩ := hentries (OrderedMap.find?_eq_some_iff.1 h)
  exact ⟨v, OrderedMap.find?_eq_some_iff.2 hv, h⟩

/-- Rewrite the first value, in key order, that satisfies `p`. -/
def modifyFirst (r : Registry key) (p : κ → β → Bool) (f : β → β)
    (hf : ∀ v, key (f v) = key v) : Registry key where
  map := r.map.modifyFirst p f
  keyed k w h := by
    obtain ⟨v, hv, rfl | rfl⟩ := find?_modifyFirst_cases h
    · exact r.keyed k w hv
    · rw [hf, r.keyed k v hv]

/-! ## Lookups -/

section Lookups

variable {r : Registry key} {k : κ} {v : β}

@[simp] theorem find?_empty (k : κ) : (∅ : Registry key).find? k = none := rfl

theorem key_of_find? (h : r.find? k = some v) : key v = k := r.keyed k v h

theorem contains_iff : r.contains k = true ↔ ∃ v, r.find? k = some v := OrderedMap.contains_iff

theorem find?_upsert (r : Registry key) (v : β) (j : κ) :
    (r.upsert v).find? j = if j = key v then some v else r.find? j := OrderedMap.find?_insert ..

theorem size_upsert_of_find?_none {r : Registry key} (h : r.find? (key v) = none) :
    (r.upsert v).size = r.size + 1 := OrderedMap.size_insert_of_find?_none v h

theorem find?_erase (r : Registry key) (k j : κ) :
    (r.erase k).find? j = if j = k then none else r.find? j := OrderedMap.find?_erase ..

theorem find?_filter (r : Registry key) (p : β → Bool) (j : κ) :
    (r.filter p).find? j = (r.find? j).filter p := OrderedMap.find?_filter ..

/-- A fold of writes, each of them to its own key. -/
theorem find?_foldl {ε : Type*} {id : ε → κ} {write : Registry key → ε → Registry key}
    {own : Option β → ε → Option β}
    (h : ∀ r e k, (write r e).find? k = if k = id e then own (r.find? (id e)) e else r.find? k)
    (entries : List ε) (r : Registry key) (k : κ) :
    (entries.foldl write r).find? k =
      (entries.filter fun e => id e = k).foldl own (r.find? k) := by
  induction entries generalizing r with
  | nil => rfl
  | cons e entries ih =>
    rw [List.foldl_cons, ih, h]
    by_cases hk : id e = k
    · rw [if_pos hk.symm, List.filter_cons_of_pos (by simpa using hk), List.foldl_cons, hk]
    · rw [if_neg (Ne.symm hk), List.filter_cons_of_neg (by simpa using hk)]

/-- A registry is known by its lookups. -/
@[ext] theorem ext {r r' : Registry key} (h : ∀ k, r.find? k = r'.find? k) : r = r' := by
  cases r; cases r'
  congr
  exact OrderedMap.ext h

theorem find?_mapValues (r : Registry key) (f : κ → β → β) (hf : ∀ k v, key (f k v) = key v)
    (j : κ) : (r.mapValues f hf).find? j = (r.find? j).map (f j) := OrderedMap.find?_mapValues ..

theorem find?_modify (r : Registry key) (k : κ) (f : β → β) (hf : ∀ v, key (f v) = key v) (j : κ) :
    (r.modify k f hf).find? j = (r.find? j).map fun v => if j = k then f v else v :=
  find?_mapValues ..

/-- Where at most one value satisfies `p`, the scan that stops at the first one rewrites it. -/
theorem find?_modifyFirst (r : Registry key) {p : κ → β → Bool} (f : β → β)
    (hf : ∀ v, key (f v) = key v)
    (hu : ∀ k v k' v', r.find? k = some v → p k v → r.find? k' = some v' → p k' v' → k = k')
    (j : κ) :
    (r.modifyFirst p f hf).find? j = (r.find? j).map fun v => if p j v then f v else v :=
  OrderedMap.find?_modifyFirst f hu j

theorem mem_values_iff : v ∈ r.values ↔ r.find? (key v) = some v := by
  unfold values OrderedMap.values
  rw [List.mem_map]
  constructor
  · rintro ⟨⟨k, w⟩, h, rfl⟩
    have hk := OrderedMap.find?_eq_some_iff.2 h
    rw [r.keyed k w hk]
    exact hk
  · exact fun h => ⟨(key v, v), OrderedMap.find?_eq_some_iff.1 h, rfl⟩

/-- The keys of the values, in order, do not repeat. -/
theorem nodup_map_key_values (r : Registry key) : (r.values.map key).Nodup := by
  have h : r.values.map key = r.map.keys := by
    unfold values OrderedMap.values OrderedMap.keys
    rw [List.map_map]
    exact List.map_congr_left fun e he => r.keyed e.1 e.2 (OrderedMap.find?_eq_some_iff.2 he)
  rw [h]
  exact r.map.nodup_keys

theorem nodup_values (r : Registry key) : r.values.Nodup := .of_map key r.nodup_map_key_values

/-- The values stand in the order of their keys. -/
theorem pairwise_values (r : Registry key) : r.values.Pairwise fun a b => key a < key b := by
  unfold values OrderedMap.values
  rw [List.pairwise_map]
  refine r.map.sorted.imp_of_mem fun {a b} ha hb h => ?_
  rw [r.keyed a.1 a.2 (OrderedMap.find?_eq_some_iff.2 ha),
    r.keyed b.1 b.2 (OrderedMap.find?_eq_some_iff.2 hb)]
  exact h

theorem length_values (r : Registry key) : r.values.length = r.size := List.length_map ..

end Lookups

end Registry
