import Mathlib.Data.List.Nodup

/-!
# Maps that remember insertion order

A list of key-value pairs in which no key occurs twice. Inserting under a known key replaces the value in place,
inserting under a new key appends. Every operation is characterised by which pairs belong to its result (`mem_insert`,
`mem_retain`, `mem_remove`).
-/

namespace Nexus.Lib

open List

/-- Key-value pairs in insertion order, no key twice. -/
structure OrderedMap (κ α : Type*) where
  entries : List (κ × α)
  keys_nodup : (entries.map Prod.fst).Nodup

namespace OrderedMap

variable {κ α : Type*} {β : Type*}

instance : Membership (κ × α) (OrderedMap κ α) := ⟨fun m p => p ∈ m.entries⟩

variable {m : OrderedMap κ α} {p : κ × α} {f : κ → α → α}

theorem mem_def : p ∈ m ↔ p ∈ m.entries := Iff.rfl

def empty : OrderedMap κ α := ⟨[], nodup_nil⟩

@[simp] theorem mem_empty : ¬ p ∈ (empty : OrderedMap κ α) := not_mem_nil

theorem value_unique {k v w} (hv : (k, v) ∈ m) (hw : (k, w) ∈ m) : v = w :=
  congrArg Prod.snd (inj_on_of_nodup_map m.keys_nodup hv hw rfl)

def retain (m : OrderedMap κ α) (p : κ → α → Bool) : OrderedMap κ α :=
  ⟨m.entries.filter fun e => p e.1 e.2, m.keys_nodup.sublist (filter_sublist.map _)⟩

theorem mem_retain {p e} : e ∈ m.retain p ↔ e ∈ m ∧ p e.1 e.2 :=
  mem_filter

/-! ## Changing values in place -/

theorem ext_entries {m'} (h : m.entries = m'.entries) : m = m' := by
  obtain ⟨l, hl⟩ := m
  obtain ⟨l', hl'⟩ := m'
  obtain rfl : l = l' := h
  rfl

def mapValues (m : OrderedMap κ α) (f : κ → α → α) : OrderedMap κ α :=
  ⟨m.entries.map fun p => (p.1, f p.1 p.2), by simpa [map_map, Function.comp_def] using m.keys_nodup⟩

theorem mem_mapValues : p ∈ m.mapValues f ↔ ∃ v, (p.1, v) ∈ m ∧ p.2 = f p.1 v := by
  simp only [mem_def, mapValues, mem_map]
  constructor
  · rintro ⟨q, hq, rfl⟩
    exact ⟨q.2, hq, rfl⟩
  · rintro ⟨v, hv, he⟩
    exact ⟨(p.1, v), hv, by rw [← he]⟩

theorem mem_mapValues_of_mem (hp : p ∈ m) : (p.1, f p.1 p.2) ∈ m.mapValues f := mem_mapValues.mpr ⟨p.2, hp, rfl⟩

theorem mapValues_congr {g} (h : ∀ p ∈ m, f p.1 p.2 = g p.1 p.2) : m.mapValues f = m.mapValues g :=
  ext_entries (map_congr_left fun p hp => by rw [h p hp])

theorem mapValues_eq_self (h : ∀ p ∈ m, f p.1 p.2 = p.2) : m.mapValues f = m := by
  refine ext_entries ?_
  have hid : ∀ p ∈ m.entries, (p.1, f p.1 p.2) = id p := fun p hp => by rw [h p hp]; rfl
  exact (map_congr_left hid).trans (map_id _)

theorem mapValues_mapValues (m : OrderedMap κ α) (f g : κ → α → α) :
    (m.mapValues f).mapValues g = m.mapValues fun k v => g k (f k v) :=
  ext_entries (by simp [mapValues, Function.comp_def])

theorem foldl_mapValues (f : β → κ → α → α) : ∀ (l : List β) (m : OrderedMap κ α),
    l.foldl (fun m b => m.mapValues (f b)) m = m.mapValues fun k v => l.foldl (fun v b => f b k v) v
  | [], m => (mapValues_eq_self fun _ _ => rfl).symm
  | b :: l, m => by
    rw [foldl_cons, foldl_mapValues f l, mapValues_mapValues]
    rfl

variable [DecidableEq κ]

theorem foldl_filterMap_at {γ : Type*} {f : α → Option β} (key : β → κ) {g : β → γ → γ} :
    ∀ {l : List (κ × α)}, (l.map Prod.fst).Nodup → (∀ p ∈ l, ∀ b, f p.2 = some b → key b = p.1) → ∀ {p : κ × α},
      p ∈ l → ∀ x, (l.filterMap fun q => f q.2).foldl (fun x b => if p.1 = key b then g b x else x) x =
        (f p.2).elim x fun b => g b x
  | [], _, _, _, hp, _ => absurd hp not_mem_nil
  | q :: l, hnd, hkey, p, hp, x => by
    simp only [map_cons, nodup_cons] at hnd
    obtain ⟨hq, hl⟩ := hnd
    obtain ⟨hkeyq, hkeyl⟩ := forall_mem_cons.mp hkey
    rcases mem_cons.mp hp with rfl | hp
    · -- nothing of the rest belongs to the key
      have hrest : ∀ y, (l.filterMap fun q => f q.2).foldl (fun x b => if p.1 = key b then g b x else x) y = y := by
        intro y
        refine List.foldlRecOn (motive := fun z => z = _) _ _ rfl fun z hz b hb => ?_
        obtain ⟨q, hql, hqb⟩ := mem_filterMap.mp hb
        have hne : p.1 ≠ key b := fun he => hq (by rw [he, hkeyl q hql b hqb]; exact mem_map_of_mem hql)
        rw [if_neg hne, hz]
      cases hf : f p.2 with
      | none => simpa [hf] using hrest x
      | some b => simpa [hf, hkeyq b hf] using hrest (g b x)
    · have hne : p.1 ≠ q.1 := fun he => hq (he ▸ mem_map_of_mem hp)
      have ih := foldl_filterMap_at key hl hkeyl hp (g := g)
      cases hf : f q.2 with
      | none => simpa [hf] using ih x
      | some b => simpa [hf, hkeyq b hf, hne] using ih x

def get? (m : OrderedMap κ α) (k : κ) : Option α := m.entries.lookup k

theorem lookup_eq_some_iff_mem : ∀ {l : List (κ × α)}, (l.map Prod.fst).Nodup → ∀ {k : κ} {v : α},
    l.lookup k = some v ↔ (k, v) ∈ l
  | [], _, k, v => by simp
  | (k₀, v₀) :: l, h, k, v => by
    simp only [map_cons, nodup_cons] at h
    by_cases hk : k = k₀
    · subst hk
      have hl : (k, v) ∉ l := fun hm => h.1 (mem_map_of_mem hm)
      simp [hl, eq_comm]
    · have ih : l.lookup k = some v ↔ (k, v) ∈ l := lookup_eq_some_iff_mem h.2
      simp [lookup_cons, beq_false_of_ne hk, ih, hk]

variable {k : κ} {v : α} {q : κ × α → Bool}

theorem get?_eq_some : m.get? k = some v ↔ (k, v) ∈ m :=
  lookup_eq_some_iff_mem m.keys_nodup

def insert (m : OrderedMap κ α) (k : κ) (v : α) : OrderedMap κ α :=
  if h : k ∈ m.entries.map Prod.fst then
    ⟨m.entries.map fun p => if p.1 = k then (k, v) else p, by
      have hkeys : (m.entries.map fun p => if p.1 = k then (k, v) else p).map Prod.fst = m.entries.map Prod.fst := by
        rw [map_map]
        refine map_congr_left fun p _ => ?_
        by_cases hp : p.1 = k <;> simp [hp]
      rw [hkeys]
      exact m.keys_nodup⟩
  else
    ⟨m.entries ++ [(k, v)], by
      rw [map_append, nodup_append]
      refine ⟨m.keys_nodup, by simp, ?_⟩
      simp only [map_cons, map_nil, mem_singleton]
      rintro a ha _ rfl rfl
      exact h ha⟩

theorem mem_insert : p ∈ m.insert k v ↔ p = (k, v) ∨ (p.1 ≠ k ∧ p ∈ m) := by
  simp only [mem_def, insert]
  split
  case isTrue h =>
    simp only [mem_map]
    constructor
    · rintro ⟨q, hq, rfl⟩
      by_cases hk : q.1 = k
      · exact .inl (if_pos hk)
      · exact .inr (by simp [hk, hq])
    · rintro (rfl | ⟨hk, hp⟩)
      · obtain ⟨q, hq, hqk⟩ := mem_map.mp h
        exact ⟨q, hq, if_pos hqk⟩
      · exact ⟨p, hp, if_neg hk⟩
  case isFalse h =>
    simp only [mem_append, mem_singleton]
    constructor
    · rintro (hp | rfl)
      · exact .inr ⟨fun hk => h (hk ▸ mem_map_of_mem hp), hp⟩
      · exact .inl rfl
    · rintro (rfl | ⟨_, hp⟩)
      · exact .inr rfl
      · exact .inl hp

theorem entries_insert_of_not_mem (h : k ∉ m.entries.map Prod.fst) :
    (m.insert k v).entries = m.entries ++ [(k, v)] := by
  simp [insert, h]

theorem entries_insert_of_mem (h : k ∈ m.entries.map Prod.fst) :
    (m.insert k v).entries = m.entries.map fun p => if p.1 = k then (k, v) else p := by
  simp [insert, h]

theorem filter_insert_of_not (hnew : q (k, v) = false)
    (hold : ∀ p ∈ m, p.1 = k → q p = false) : (m.insert k v).entries.filter q = m.entries.filter q := by
  by_cases hk : k ∈ m.entries.map Prod.fst
  · have hsame : ∀ p ∈ m.entries, q (if p.1 = k then (k, v) else p) = q p := by
      intro p hp
      by_cases hpk : p.1 = k
      · rw [if_pos hpk, hnew, hold p hp hpk]
      · rw [if_neg hpk]
    have hkept : ∀ p ∈ m.entries.filter q, (if p.1 = k then (k, v) else p) = id p := by
      intro p hp
      obtain ⟨hp, hq⟩ := mem_filter.mp hp
      exact if_neg fun hpk => by rw [hold p hp hpk] at hq; cases hq
    rw [entries_insert_of_mem hk, filter_map, Function.comp_def, filter_congr hsame, map_congr_left hkept, map_id]
  · rw [entries_insert_of_not_mem hk, filter_append]
    simp [hnew]

theorem filter_insert_of_singleton {w}
    (hold : m.entries.filter q = [(k, w)]) (hnew : q (k, v)) : (m.insert k v).entries.filter q = [(k, v)] := by
  have hmem : (k, w) ∈ m.entries.filter q := hold ▸ mem_singleton_self _
  obtain ⟨hm, hw⟩ := mem_filter.mp hmem
  have hsame : ∀ p ∈ m.entries, q (if p.1 = k then (k, v) else p) = q p := by
    intro p hp
    by_cases hpk : p.1 = k
    · obtain rfl : p = (k, w) := inj_on_of_nodup_map m.keys_nodup hp hm hpk
      rw [if_pos hpk, hnew, hw]
    · rw [if_neg hpk]
  have hk : k ∈ m.entries.map Prod.fst := mem_map_of_mem hm
  rw [entries_insert_of_mem hk, filter_map, Function.comp_def, filter_congr hsame, hold]
  simp

def remove (m : OrderedMap κ α) (k : κ) : OrderedMap κ α := m.retain fun k' _ => k' ≠ k

theorem mem_remove : p ∈ m.remove k ↔ p.1 ≠ k ∧ p ∈ m := by
  simp [remove, mem_retain, and_comm]

theorem remove_remove (m : OrderedMap κ α) (k : κ) : (m.remove k).remove k = m.remove k :=
  ext_entries (by simp [remove, retain, filter_filter])

theorem insert_eq_mapValues (f : α → α) (h : m.get? k = some v) :
    m.insert k (f v) = m.mapValues fun k' w => if k' = k then f w else w := by
  have hmem := get?_eq_some.mp h
  have hk : k ∈ m.entries.map Prod.fst := mem_map_of_mem hmem
  refine ext_entries ?_
  simp only [insert, hk, dite_true, mapValues]
  refine map_congr_left fun p hp => ?_
  by_cases hpk : p.1 = k
  · obtain ⟨k', w⟩ := p
    obtain rfl : k' = k := hpk
    simp [value_unique hmem hp]
  · simp [hpk]

theorem insert_self (h : m.get? k = some v) : m.insert k v = m :=
  (insert_eq_mapValues id h).trans (mapValues_eq_self fun p _ => by simp)

theorem mapValues_at (m : OrderedMap κ α) (k : κ) (f : α → α) : (m.mapValues fun k' v => if k' = k then f v else v) =
      match m.get? k with
      | none => m
      | some v => m.insert k (f v) := by
  cases h : m.get? k with
  | some => exact (insert_eq_mapValues f h).symm
  | none =>
    refine mapValues_eq_self fun p hp => if_neg ?_
    rintro rfl
    rw [get?_eq_some.mpr hp] at h
    cases h

theorem get?_mapValues (m : OrderedMap κ α) (f : κ → α → α) (k : κ) :
    (m.mapValues f).get? k = (m.get? k).map (f k) := by
  refine Option.ext fun w => ?_
  simp only [get?_eq_some, mem_mapValues, Option.map_eq_some_iff]
  exact ⟨fun ⟨v, hv, he⟩ => ⟨v, hv, he.symm⟩, fun ⟨v, hv, he⟩ => ⟨v, hv, he.symm⟩⟩

theorem isSome_get?_mapValues (m : OrderedMap κ α) (f : κ → α → α) (k : κ) :
    ((m.mapValues f).get? k).isSome = (m.get? k).isSome := by
  rw [get?_mapValues, Option.isSome_map]

theorem get?_insert (m : OrderedMap κ α) (k k' : κ) (v : α) :
    (m.insert k v).get? k' = if k' = k then some v else m.get? k' := by
  refine Option.ext fun w => ?_
  rw [get?_eq_some, mem_insert]
  by_cases h : k' = k
  · simp [h, eq_comm]
  · simp [h, get?_eq_some]

theorem get?_foldl_insert (key : β → κ) (value : β → α) (k : κ) : ∀ (l : List β) (m : OrderedMap κ α),
    (l.foldl (fun m b => m.insert (key b) (value b)) m).get? k =
      l.foldl (fun v b => if k = key b then some (value b) else v) (m.get? k)
  | [], _ => rfl
  | b :: l, m => by
    rw [foldl_cons, get?_foldl_insert key value k l, get?_insert, foldl_cons]

theorem get?_foldl_insert_at (value : κ → α) (k : κ) : ∀ (l : List κ) (m : OrderedMap κ α),
    (l.foldl (fun m k => m.insert k (value k)) m).get? k = if k ∈ l then some (value k) else m.get? k
  | [], _ => rfl
  | b :: l, m => by
    rw [foldl_cons, get?_foldl_insert_at value k l, get?_insert]
    by_cases hl : k ∈ l
    · rw [if_pos hl, if_pos (mem_cons_of_mem b hl)]
    · by_cases hb : k = b
      · subst hb
        rw [if_neg hl, if_pos rfl, if_pos mem_cons_self]
      · rw [if_neg hl, if_neg hb, if_neg (by simp [hl, hb])]

theorem get?_foldl_change (f : β → Option α → α) (k : κ) : ∀ {l : List (κ × β)}, (l.map Prod.fst).Nodup →
    ∀ m : OrderedMap κ α, (l.foldl (fun m p => m.insert p.1 (f p.2 (m.get? p.1))) m).get? k =
      ((l.lookup k).map fun b => f b (m.get? k)).or (m.get? k)
  | [], _, m => rfl
  | (i, b) :: l, hnd, m => by
    simp only [map_cons, nodup_cons] at hnd
    rw [foldl_cons, get?_foldl_change f k hnd.2, get?_insert, lookup_cons]
    by_cases hk : k = i
    · subst hk
      -- the key is not touched again
      have latest : l.lookup k = none := by
        rw [lookup_eq_none_iff]
        intro p hp
        have hne : k ≠ p.1 := fun he => hnd.1 (he ▸ mem_map_of_mem hp)
        simpa using hne
      simp [latest]
    · simp [hk, beq_false_of_ne hk]

theorem of_get?_foldl_insert {key : β → κ} {value : OrderedMap κ α → β → α} :
    ∀ (l : List β) (m : OrderedMap κ α), (l.foldl (fun m b => m.insert (key b) (value m b)) m).get? k = some v →
      (∃ b ∈ l, key b = k ∧ ∃ m', v = value m' b) ∨ m.get? k = some v ∧ ∀ b ∈ l, key b ≠ k
  | [], _, h => .inr ⟨h, forall_mem_nil _⟩
  | b :: l, m, h => by
    rw [foldl_cons] at h
    rcases of_get?_foldl_insert l _ h with ⟨c, hc, h⟩ | ⟨h, hne⟩
    · exact .inl ⟨c, mem_cons_of_mem _ hc, h⟩
    · rw [get?_insert] at h
      split at h
      · next hk => exact .inl ⟨b, mem_cons_self, hk.symm, m, (Option.some.inj h).symm⟩
      · next hk => exact .inr ⟨h, forall_mem_cons.mpr ⟨Ne.symm hk, hne⟩⟩

def insertNew (m : OrderedMap κ α) (k : κ) (v : α) : OrderedMap κ α := if (m.get? k).isSome then m else m.insert k v

theorem get?_insertNew (m : OrderedMap κ α) (k k' : κ) (v : α) :
    (m.insertNew k v).get? k' = (m.get? k').or (if k = k' then some v else none) := by
  unfold insertNew
  by_cases hk : k = k'
  · subst hk
    cases h : m.get? k <;> simp [h, get?_insert]
  · split <;> simp [get?_insert, Ne.symm hk]

theorem entries_insertNew (m : OrderedMap κ α) (k : κ) (v : α) :
    (m.insertNew k v).entries = m.entries ∨ (m.insertNew k v).entries = m.entries ++ [(k, v)] := by
  unfold insertNew
  split
  · exact .inl rfl
  · next hnone =>
    refine .inr (entries_insert_of_not_mem fun hk => ?_)
    obtain ⟨p, hp, rfl⟩ := mem_map.mp hk
    rw [get?_eq_some.mpr hp] at hnone
    exact hnone rfl

theorem get?_foldl_insertNew (key : β → κ) (value : β → α) (k : κ) : ∀ (l : List β) (m : OrderedMap κ α),
    (l.foldl (fun m b => m.insertNew (key b) (value b)) m).get? k =
      (m.get? k).or ((l.find? fun b => key b = k).map value)
  | [], m => by simp
  | b :: l, m => by
    rw [foldl_cons, get?_foldl_insertNew key value k l, get?_insertNew, Option.or_assoc]
    by_cases hk : key b = k
    · simp [hk]
    · simp [hk]

theorem get?_retain_key (m : OrderedMap κ α) (p : κ → Bool) (k : κ) :
    (m.retain fun k' _ => p k').get? k = if p k then m.get? k else none := by
  refine Option.ext fun w => ?_
  rw [get?_eq_some, mem_retain]
  cases hp : p k with
  | false => simp
  | true => simp [get?_eq_some]

theorem get?_remove (m : OrderedMap κ α) (k k' : κ) : (m.remove k).get? k' = if k' = k then none else m.get? k' := by
  refine Option.ext fun w => ?_
  rw [get?_eq_some, mem_remove]
  by_cases h : k' = k
  · simp [h]
  · simp [h, get?_eq_some]

theorem remove_eq_self_iff : m.remove k = m ↔ m.get? k = none := by
  constructor
  · intro h
    rw [← h, get?_remove, if_pos rfl]
  · intro hnone
    refine ext_entries (filter_eq_self.mpr fun e he => decide_eq_true fun hk => ?_)
    cases hnone.symm.trans (get?_eq_some.mpr (hk ▸ he : (k, e.2) ∈ m))

theorem get?_foldl_remove (k : κ) : ∀ (l : List κ) (m : OrderedMap κ α),
    (l.foldl remove m).get? k = if k ∈ l then none else m.get? k
  | [], m => rfl
  | k' :: l, m => by
    rw [foldl_cons, get?_foldl_remove k l, get?_remove]
    by_cases hk : k = k'
    · simp [hk]
    · simp [hk]

end OrderedMap

end Nexus.Lib
