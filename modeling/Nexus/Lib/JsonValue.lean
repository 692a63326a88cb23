import Mathlib.Data.List.Basic

/-!
# JSON values

Parsed JSON values, read by key and changed in place. An object is known by what it has at its keys, so every change of
one comes with what it does at a key (`get_set_self`, `get_set_ne`, `get_update_self`, `get_update_ne`, …).
-/

namespace Nexus.Lib

open List

inductive Number
  | unsigned (n : UInt64)
  | negative (n : Int64)
  | float (bits : UInt64)

inductive Value
  | null
  | bool (b : Bool)
  | number (n : Number)
  | string (s : String)
  | array (items : List Value)
  | object (entries : List (String × Value))

namespace Value

/-! ## Reading -/

def asBool : Value → Option Bool
  | .bool b => some b
  | _ => none

def asStr : Value → Option String
  | .string s => some s
  | _ => none

def asArray : Value → Option (List Value)
  | .array items => some items
  | _ => none

def get (v : Value) (k : String) : Option Value :=
  match v with
  | .object entries => entries.lookup k
  | _ => none

def pointer : Value → List String → Option Value
  | v, [] => some v
  | v, k :: ks => (v.get k).bind (·.pointer ks)

/-! ## Changing -/

def update (v : Value) (k : String) (f : Value → Value) : Value :=
  match v with
  | .object entries => .object (entries.map fun e => if e.1 = k then (e.1, f e.2) else e)
  | v => v

def set (v : Value) (k : String) (x : Value) : Value :=
  match v with
  | .object entries => .object ((k, x) :: entries.filter (·.1 ≠ k))
  | .null => .object [(k, x)]
  | v => v

def remove (v : Value) (k : String) : Value :=
  match v with
  | .object entries => .object (entries.filter (·.1 ≠ k))
  | v => v

def mapItems (v : Value) (f : List Value → List Value) : Value :=
  match v with
  | .array items => .array (f items)
  | v => v

variable {k k' : String} {x v : Value} {f : Value → Value}

theorem lookup_filter_ne (h : k ≠ k') : ∀ entries : List (String × Value),
    (entries.filter (·.1 ≠ k')).lookup k = entries.lookup k
  | [] => rfl
  | (i, y) :: entries => by
    have ih := lookup_filter_ne h entries
    by_cases hi : i = k'
    · subst hi
      rw [filter_cons_of_neg (by simp), lookup_cons, beq_false_of_ne h]
      exact ih
    · rw [filter_cons_of_pos (by simpa using hi), lookup_cons, lookup_cons, ih]

theorem lookup_map_update : ∀ entries : List (String × Value),
    (entries.map fun e => if e.1 = k' then (e.1, f e.2) else e).lookup k =
      (entries.lookup k).map (if k = k' then f else id)
  | [] => rfl
  | (i, y) :: entries => by
    have ih := lookup_map_update entries
    rw [map_cons]
    by_cases hk : k = i
    · subst hk
      by_cases hi : k = k'
      · simp [hi]
      · simp [hi]
    · by_cases hi : i = k'
      · subst hi
        simpa [lookup_cons, beq_false_of_ne hk] using ih
      · simpa [lookup_cons, beq_false_of_ne hk, hi] using ih

def Assignable (v : Value) : Prop := (∃ entries, v = .object entries) ∨ v = .null

theorem assignable_set (h : v.Assignable) : (v.set k x).Assignable := by
  rcases h with ⟨entries, rfl⟩ | rfl
  · exact .inl ⟨_, rfl⟩
  · exact .inl ⟨_, rfl⟩

theorem assignable_update (h : v.Assignable) : (v.update k f).Assignable := by
  rcases h with ⟨entries, rfl⟩ | rfl
  · exact .inl ⟨_, rfl⟩
  · exact .inr rfl

theorem get_set_self (h : v.Assignable) : (v.set k x).get k = some x := by
  rcases h with ⟨entries, rfl⟩ | rfl
  · exact lookup_cons_self
  · exact lookup_cons_self

theorem get_set_ne (h : k ≠ k') (v : Value) : (v.set k' x).get k = v.get k := by
  cases v with
  | object entries =>
    show ((k', x) :: entries.filter (·.1 ≠ k')).lookup k = entries.lookup k
    rw [lookup_cons, beq_false_of_ne h]
    exact lookup_filter_ne h entries
  | null =>
    show [(k', x)].lookup k = none
    rw [lookup_cons, beq_false_of_ne h]
    rfl
  | _ => rfl

theorem get_remove_ne (h : k ≠ k') (v : Value) : (v.remove k').get k = v.get k := by
  cases v with
  | object entries => exact lookup_filter_ne h entries
  | _ => rfl

theorem get_update_self (v : Value) : (v.update k f).get k = (v.get k).map f := by
  cases v with
  | object entries => exact (lookup_map_update entries).trans (by rw [if_pos rfl]; rfl)
  | _ => rfl

theorem get_update_ne (h : k ≠ k') (v : Value) : (v.update k' f).get k = v.get k := by
  cases v with
  | object entries =>
    refine (lookup_map_update entries).trans ?_
    rw [if_neg h, Option.map_id]
    rfl
  | _ => rfl

end Value

end Nexus.Lib
