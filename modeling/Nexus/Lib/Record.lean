import Mathlib.Data.Finmap
import Mathlib.Data.String.Basic
import Nexus.Lib.JsonValue

/-!
# Records in objects

A record in a JSON object, where a field that is not set is left out or null. Keys that are no fields can be kept
(`RecordType.unknown`) and put back into what is written later. Nothing is lost that way (`RecordType.union_unknown`),
and no field is overwritten (`RecordType.read_union`, `RecordType.unknown_union`).
-/

namespace Nexus.Lib

open Option

abbrev Object := Finmap fun _ : String => Value

/-! ## Values -/

structure Codec (α : Type*) where
  toValue : α → Value
  ofValue : Value → Option α
  ofValue_eq_some : ∀ v a, ofValue v = some a ↔ v = toValue a
  ne_null : ∀ a, toValue a ≠ .null

namespace Codec

def string : Codec String where
  toValue := .string
  ofValue := Value.asStr
  ofValue_eq_some v a := by cases v <;> simp [Value.asStr]
  ne_null _ h := by cases h

def bool : Codec Bool where
  toValue := .bool
  ofValue := Value.asBool
  ofValue_eq_some v a := by cases v <;> simp [Value.asBool]
  ne_null _ h := by cases h

def int64 : Codec Int64 where
  toValue a := .number (if 0 ≤ a then .unsigned a.toUInt64 else .negative a)
  ofValue
    | .number (.unsigned n) => if 0 ≤ n.toInt64 then some n.toInt64 else none
    | .number (.negative n) => if 0 ≤ n then none else some n
    | _ => none
  ofValue_eq_some v a := by
    split
    · next n =>
      simp only [ite_none_right_eq_some, some.injEq, Value.number.injEq]
      constructor
      · rintro ⟨hn, rfl⟩
        rw [if_pos hn, UInt64.toUInt64_toInt64]
      · intro h
        split at h
        · next ha =>
          obtain rfl := Number.unsigned.inj h
          exact ⟨ha, rfl⟩
        · cases h
    · next n =>
      simp only [ite_none_left_eq_some, some.injEq, Value.number.injEq]
      constructor
      · rintro ⟨hn, rfl⟩
        rw [if_neg hn]
      · intro h
        split at h
        · cases h
        · next ha =>
          obtain rfl := Number.negative.inj h
          exact ⟨ha, rfl⟩
    · next hunsigned hnegative =>
      refine iff_of_false nofun fun h => ?_
      split at h
      · exact hunsigned _ h
      · exact hnegative _ h
  ne_null _ h := by cases h

def text (p : String → Bool) : Codec { s : String // p s = true } where
  toValue s := .string s.1
  ofValue v := v.asStr.bind fun s => if h : p s then some ⟨s, h⟩ else none
  ofValue_eq_some v a := by
    obtain ⟨a, ha⟩ := a
    cases v with
    | string s =>
      simp only [Value.asStr, bind_some, Value.string.injEq, dite_none_right_eq_some, some.injEq, Subtype.mk.injEq]
      exact ⟨fun ⟨_, h⟩ => h, fun h => ⟨h ▸ ha, h⟩⟩
    | _ => simp [Value.asStr]
  ne_null _ h := by cases h

def enumeration {α : Type*} (name : α → String) (all : List α) (complete : ∀ a, a ∈ all)
    (injective : ∀ a b, name a = name b → a = b) : Codec α where
  toValue a := .string (name a)
  ofValue v := v.asStr.bind fun s => all.find? fun a => name a = s
  ofValue_eq_some v a := by
    cases v with
    | string s =>
      simp only [Value.asStr, bind_some, Value.string.injEq]
      constructor
      · intro h
        have hname : name a = s := by simpa using List.find?_some h
        exact hname.symm
      · rintro rfl
        cases h : all.find? fun b => name b = name a with
        | none => exact absurd (List.find?_eq_none.mp h a (complete a)) (by simp)
        | some b => rw [injective b a (by simpa using List.find?_some h)]
    | _ => simp [Value.asStr]
  ne_null _ h := by cases h

end Codec

/-! ## Fields -/

theorem lookup_foldl_erase (k : String) : ∀ (l : List (Σ _ : String, Value)) (o : Object),
    (l.foldl (fun o p => o.erase p.1) o).lookup k = if k ∈ l.keys then none else o.lookup k
  | [], o => (if_neg List.not_mem_nil).symm
  | p :: l, o => by
    rw [List.foldl_cons, lookup_foldl_erase k l]
    by_cases hk : k = p.1
    · subst hk
      simp
    · simp [hk, Finmap.lookup_erase_ne]

theorem lookup_sdiff (o o' : Object) (k) : (o \ o').lookup k = if k ∈ o' then none else o.lookup k := by
  induction o' using Finmap.induction_on with
  | H l => exact (lookup_foldl_erase k l.entries o).trans (if_congr Iff.rfl rfl rfl)

section

variable {α : Type*} {c : Codec α} {o : Object} {k : String}

def Holds (o : Object) (p : String × Option Value) : Prop :=
  match p.2 with
  | some v => o.lookup p.1 = some v
  | none => o.lookup p.1 = none ∨ o.lookup p.1 = some .null

def required (c : Codec α) (o : Object) (k : String) : Option α := (o.lookup k).bind c.ofValue

def optional (c : Codec α) (o : Object) (k : String) : Option (Option α) :=
  match o.lookup k with
  | none => some none
  | some .null => some none
  | some v => (c.ofValue v).map some

theorem required_eq_some {a} : required c o k = some a ↔ Holds o (k, some (c.toValue a)) := by
  simp [required, Holds, bind_eq_some_iff, c.ofValue_eq_some]

theorem optional_eq_some {a} : optional c o k = some a ↔ Holds o (k, a.map c.toValue) := by
  unfold optional
  split
  · next h => cases a <;> simp [Holds, h]
  · next h =>
    cases a with
    | none => simp [Holds, h]
    | some a => simpa [Holds, h] using (c.ne_null a).symm
  · next v hv h =>
    cases a with
    | none => simpa [Holds, h] using hv
    | some => simp [Holds, h, c.ofValue_eq_some]

end

/-! ## Records -/

/-- Fields with their values, and the reader. -/
structure RecordType (τ : Type*) where
  fields : τ → List (String × Option Value)
  read : Object → Option τ
  keys_nodup : ∀ t, ((fields t).map Prod.fst).Nodup
  read_eq_some : ∀ o t, read o = some t ↔ ∀ p ∈ fields t, Holds o p

namespace RecordType

variable {τ : Type*} (r : RecordType τ) {o extras : Object} {t : τ} {k : String}

def present (t : τ) : List (Σ _ : String, Value) := (r.fields t).filterMap fun p => p.2.map fun v => ⟨p.1, v⟩

def toObject (t : τ) : Object := (r.present t).toFinmap

def unknown (o : Object) (t : τ) : Object := o \ r.toObject t

theorem keys_sublist : ∀ l : List (String × Option Value),
    (l.filterMap fun p => p.2.map fun v => (⟨p.1, v⟩ : Σ _ : String, Value)).keys.Sublist (l.map Prod.fst)
  | [] => .slnil
  | (k, none) :: l => (keys_sublist l).cons k
  | (k, some _) :: l => (keys_sublist l).cons_cons k

theorem lookup_toObject {v} : (r.toObject t).lookup k = some v ↔ (k, some v) ∈ r.fields t := by
  have hkeys : (r.present t).NodupKeys := (r.keys_nodup t).sublist (keys_sublist (r.fields t))
  rw [toObject, Finmap.dlookup_list_toFinmap, ← mem_def, List.mem_dlookup_iff hkeys, present, List.mem_filterMap]
  constructor
  · rintro ⟨⟨k', _ | v'⟩, hp, h⟩
    · cases h
    · cases h
      exact hp
  · exact fun h => ⟨_, h, rfl⟩

/-- **What is written with the unknown keys is the object.** -/
theorem union_unknown (h : r.read o = some t) : r.toObject t ∪ r.unknown o t = o := by
  refine Finmap.ext_lookup fun k => ?_
  by_cases hk : k ∈ r.toObject t
  · obtain ⟨v, hv⟩ := Finmap.mem_iff.mp hk
    rw [Finmap.lookup_union_left hk, hv]
    exact ((r.read_eq_some o t).mp h _ (r.lookup_toObject.mp hv)).symm
  · rw [Finmap.lookup_union_right hk, unknown, lookup_sdiff, if_neg hk]

theorem read_union (h : ∀ k, (k, none) ∈ r.fields t → Holds extras (k, none)) :
    r.read (r.toObject t ∪ extras) = some t := by
  refine (r.read_eq_some _ t).mpr ?_
  rintro ⟨k, _ | v⟩ hp
  · -- the record has nothing under the key
    have hnone : k ∉ r.toObject t := by
      intro hk
      obtain ⟨v, hv⟩ := Finmap.mem_iff.mp hk
      cases List.inj_on_of_nodup_map (r.keys_nodup t) hp (r.lookup_toObject.mp hv) rfl
    unfold Holds
    simp only [Finmap.lookup_union_right hnone]
    exact h k hp
  · have hv := r.lookup_toObject.mpr hp
    exact (Finmap.lookup_union_left (Finmap.mem_of_lookup_eq_some hv)).trans hv

theorem unknown_union : r.unknown (r.toObject t ∪ extras) t = r.unknown extras t := by
  refine Finmap.ext_lookup fun k => ?_
  rw [unknown, unknown, lookup_sdiff, lookup_sdiff]
  by_cases hk : k ∈ r.toObject t
  · rw [if_pos hk, if_pos hk]
  · rw [if_neg hk, if_neg hk, Finmap.lookup_union_right hk]

end RecordType

end Nexus.Lib
