import Mathlib.Data.List.Basic

/-!
# Updates of a part of a record

A record is seen as a function from its properties to their values. An update names some of them: those that it sets and
those that it deletes. `ChangesOnly` says that no others change, which is one equation for every property that is not
set (`changesOnly_iff`). Where properties are deleted one after the other, `get_foldl_delete` says what is left.
-/

namespace Nexus.Lib

variable {P V R D : Type*}

structure ChangesOnly (sets : P → Bool) (deletes : List P) (before after : P → Option V) : Prop where
  kept : ∀ p, sets p = false → p ∉ deletes → after p = before p
  deleted : ∀ p ∈ deletes, sets p = false → after p = none

variable [DecidableEq P] {sets : P → Bool} {deletes : List P} {before after : P → Option V}

theorem changesOnly_iff : ChangesOnly sets deletes before after ↔
    ∀ p, sets p = false → after p = if p ∈ deletes then none else before p := by
  constructor
  · intro h p hp
    split
    · next hdels => exact h.deleted p hdels hp
    · next hdels => exact h.kept p hp hdels
  · intro h
    refine ⟨fun p hp hdels => ?_, fun p hdels hp => ?_⟩
    · rw [h p hp, if_neg hdels]
    · rw [h p hp, if_pos hdels]

theorem get_foldl_delete {get : R → P → Option V} {delete : R → D → R} {name : D → P}
    (hdel : ∀ r d p, get (delete r d) p = if p = name d then none else get r p) (p) : ∀ (ds : List D) (r : R),
    get (ds.foldl delete r) p = if p ∈ ds.map name then none else get r p
  | [], _ => rfl
  | d :: ds, r => by
    rw [List.foldl_cons, get_foldl_delete hdel p ds, hdel]
    by_cases hd : p = name d
    · rw [if_pos hd, ite_self, if_pos (hd ▸ List.mem_cons_self)]
    · refine if_congr ?_ rfl (if_neg hd)
      rw [List.map_cons, List.mem_cons]
      exact ⟨.inr, fun h => h.resolve_left hd⟩

end Nexus.Lib
