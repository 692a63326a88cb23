import Mathlib.Data.List.Basic

/-!
# The first match in a list

Where the first element that matches counts, the order of a list matters. Elements that do not match can be left out
(`find?_filter_of_forall`), and those that pass a test can be moved before the others exactly if no match is overtaken
by a later one (`find?_partition_iff`).
-/

namespace Nexus.Lib

open List

variable {α : Type*} {p q : α → Bool} {l : List α} {a : α}

theorem find?_filter_of_forall (h : ∀ x ∈ l, q x → p x) : (l.filter p).find? q = l.find? q := by
  rw [find?_filter]
  induction l with
  | nil => rfl
  | cons x _ ih =>
    obtain ⟨hx, hl⟩ := forall_mem_cons.mp h
    rw [find?_cons, find?_cons]
    cases hq : q x with
    | false => simpa using ih hl
    | true => simp [hx hq]

theorem find?_filter_of_find? (h : l.find? q = some a) (ha : p a) : (l.filter p).find? q = some a := by
  obtain ⟨hq, before, after, rfl, hbef⟩ := find?_eq_some_iff_append.mp h
  refine find?_eq_some_iff_append.mpr ⟨hq, before.filter p, after.filter p, ?_, fun x hx => ?_⟩
  · rw [filter_append, filter_cons_of_pos ha]
  · exact hbef x (mem_filter.mp hx).1

/-- Elements that pass a test are moved before the others. -/
theorem find?_partition_iff : (l.filter p ++ l.filter (!p ·)).find? q = l.find? q ↔
    ∀ a, l.find? q = some a → p a = false → ∀ x ∈ l, q x → p x = false := by
  rw [find?_append]
  cases first : (l.filter p).find? q with
  | none =>
    have hnone : ∀ x ∈ l, q x → p x = false := by
      intro x hx hq
      refine Bool.eq_false_iff.mpr fun hp => ?_
      exact find?_eq_none.mp first x (mem_filter.mpr ⟨hx, hp⟩) hq
    refine iff_of_true ?_ fun _ _ _ => hnone
    rw [Option.none_or]
    exact find?_filter_of_forall fun x hx hq => by rw [hnone x hx hq]; rfl
  | some b =>
    obtain ⟨hb, hpb⟩ := mem_filter.mp (mem_of_find?_eq_some first)
    have hqb := find?_some first
    rw [Option.some_or]
    constructor
    · intro h a ha hpa
      cases h.trans ha
      cases hpb.symm.trans hpa
    · intro h
      cases ha : l.find? q with
      | none => exact absurd hqb (find?_eq_none.mp ha b hb)
      | some a =>
        cases hpa : p a with
        | true => exact first.symm.trans (find?_filter_of_find? ha hpa)
        | false => cases hpb.symm.trans (h a ha hpa b hb hqb)

end Nexus.Lib
