import Mathlib.Data.List.Sort

/-!
# Stable sorting

Insertion sort keeps the order of what is equal, so it does not change which of several equal items is found first.
Sorted by a key, the items of a list come out the same from every order exactly if the key tells them apart:
`insertionSort_eq_of_perm`, and `eq_of_insertionSort_cons` for two items that can both come first.
-/

namespace Nexus.Lib.StableSort

open List

variable {α : Type*} {r : α → α → Prop} [DecidableRel r] {p : α → Bool}

theorem find?_orderedInsert {a} : ∀ l : List α, (p a → ∀ b ∈ l, p b → r a b) →
      (l.orderedInsert r a).find? p = if p a then some a else l.find? p
  | [], _ => by cases h : p a <;> simp [h]
  | b :: l, h => by
    rw [orderedInsert_cons]
    split
    · rw [find?_cons]
      cases p a <;> rfl
    · next hr =>
      rw [find?_cons, find?_orderedInsert l fun ha c hc => h ha c (mem_cons_of_mem b hc), find?_cons]
      cases hb : p b with
      | false => rfl
      | true =>
        cases ha : p a with
        | false => rfl
        | true => exact absurd (h ha b mem_cons_self hb) hr

theorem find?_insertionSort (h : ∀ a b, p a → p b → r a b) : ∀ l : List α, (l.insertionSort r).find? p = l.find? p
  | [] => rfl
  | a :: l => by
    rw [insertionSort_cons, find?_orderedInsert _ fun ha b _ hb => h a b ha hb, find?_insertionSort h l, find?_cons]
    cases p a <;> rfl

variable {κ : Type*} [LinearOrder κ] {key : α → κ} [DecidableRel fun a b : α => key a ≤ key b] {l l' : List α}

theorem pairwise_insertionSort (l : List α) :
    (l.insertionSort fun a b => key a ≤ key b).Pairwise fun a b => key a ≤ key b := by
  have total : Std.Total fun a b => key a ≤ key b := ⟨fun _ _ => le_total _ _⟩
  have trans : IsTrans α fun a b => key a ≤ key b := ⟨fun _ _ _ => le_trans⟩
  exact List.pairwise_insertionSort _ l

theorem insertionSort_eq_of_perm (hinj : ∀ a ∈ l, ∀ b ∈ l, key a = key b → a = b) (h : l'.Perm l) :
    l'.insertionSort (fun a b => key a ≤ key b) = l.insertionSort fun a b => key a ≤ key b := by
  have hsort := ((perm_insertionSort (fun a b => key a ≤ key b) l').trans h).trans
    (perm_insertionSort (fun a b => key a ≤ key b) l).symm
  refine hsort.eq_of_pairwise (fun a b ha hb hab hba => ?_) (pairwise_insertionSort l') (pairwise_insertionSort l)
  exact hinj a (h.mem_iff.mp ((mem_insertionSort _).mp ha)) b ((mem_insertionSort _).mp hb)
    (le_antisymm hab hba)

theorem eq_of_insertionSort_cons {a b} (hkey : key a = key b)
    (h : (a :: l).insertionSort (fun a b => key a ≤ key b) = (b :: l').insertionSort fun a b => key a ≤ key b) :
    a = b := by
  have first : ∀ (c : α) (l : List α), key c = key b →
      ((c :: l).insertionSort fun a b => key a ≤ key b).find? (fun d => key d = key b) = some c := fun c l hc => by
    rw [find?_insertionSort fun d e hd he => le_of_eq ((of_decide_eq_true hd).trans (of_decide_eq_true he).symm)]
    exact find?_cons_of_pos (decide_eq_true hc)
  have hsame := (first a l hkey).symm.trans ((congrArg _ h).trans (first b l' rfl))
  exact Option.some.inj hsame

end Nexus.Lib.StableSort
