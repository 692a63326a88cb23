import Mathlib.Data.List.Nodup
import Mathlib.Logic.Equiv.Basic

/-!
# Greedy matchings

Places ask one after the other for an item that fits, and each gets one that is the least useful for all other places
(`Greedy`). What comes out is a matching (`Greedy.matching`), and no matching covers more places
(`Greedy.length_le_countP`), by an exchange argument (`Matching.exists_without`).
-/

namespace Nexus.Lib

open List

variable {ν κ : Type*}

/-- Each gets one of those that are the least useful to the others. -/
inductive Greedy (fits : ν → κ → Prop) : List ν → Set κ → List (ν × κ) → Prop
  | nil (free : Set κ) : Greedy fits [] free []
  | skip {n ns free pairs} (unfit : ∀ k ∈ free, ¬ fits n k)
      (rest : Greedy fits ns free pairs) : Greedy fits (n :: ns) free pairs
  | take {n ns free k pairs} (mem : k ∈ free) (fit : fits n k)
      (least : ∀ k' ∈ free, fits n k' → ∀ m, fits m k → fits m k') (rest : Greedy fits ns (free \ {k}) pairs) :
      Greedy fits (n :: ns) free ((n, k) :: pairs)

structure Matching (fits : ν → κ → Prop) (ns : List ν) (free : Set κ) (pairs : List (ν × κ)) : Prop where
  places : (pairs.map Prod.fst).Nodup
  items : (pairs.map Prod.snd).Nodup
  place_mem : ∀ q ∈ pairs, q.1 ∈ ns
  item_mem : ∀ q ∈ pairs, q.2 ∈ free
  fit : ∀ q ∈ pairs, fits q.1 q.2

theorem length_le_filter_ne_add_one {α β : Type*} [DecidableEq β] {f : α → β} {l : List α} (h : (l.map f).Nodup) (b) :
    l.length ≤ (l.filter fun a => f a ≠ b).length + 1 := by
  have count : l.countP (fun a => f a = b) ≤ 1 := by
    have hle := nodup_iff_count_le_one.mp h b
    rwa [List.count, countP_map] at hle
  have parts : l.length = l.countP (fun a => f a = b) + l.countP fun a => f a ≠ b := by
    simpa using length_eq_countP_add_countP (fun a => decide (f a = b)) (l := l)
  rw [← countP_eq_length_filter]
  omega

variable {fits : ν → κ → Prop} {n : ν} {ns : List ν} {free : Set κ} {k : κ} {pairs : List (ν × κ)}

namespace Matching

theorem filter (h : Matching fits ns free pairs) (p) : Matching fits ns free (pairs.filter p) where
  places := h.places.sublist (filter_sublist.map _)
  items := h.items.sublist (filter_sublist.map _)
  place_mem q hq := h.place_mem q (mem_of_mem_filter hq)
  item_mem q hq := h.item_mem q (mem_of_mem_filter hq)
  fit q hq := h.fit q (mem_of_mem_filter hq)

theorem of_cons (h : Matching fits (n :: ns) free pairs) (hn : ∀ q ∈ pairs, q.1 ≠ n) : Matching fits ns free pairs where
  places := h.places
  items := h.items
  place_mem q hq := (mem_cons.mp (h.place_mem q hq)).resolve_left (hn q hq)
  item_mem := h.item_mem
  fit := h.fit

theorem diff (h : Matching fits ns free pairs) (hk : ∀ q ∈ pairs, q.2 ≠ k) : Matching fits ns (free \ {k}) pairs where
  places := h.places
  items := h.items
  place_mem := h.place_mem
  item_mem q hq := ⟨h.item_mem q hq, hk q hq⟩
  fit := h.fit

theorem exchange [DecidableEq κ] {k'} (h : Matching fits ns free pairs) (hmem : k' ∈ free)
    (unused : ∀ q ∈ pairs, q.2 ≠ k') (hstand : ∀ m, fits m k → fits m k') :
    Matching fits ns (free \ {k}) (pairs.map (Prod.map id (Equiv.swap k k'))) := by
  have hswap : ∀ q ∈ pairs, Equiv.swap k k' q.2 ∈ free \ {k} ∧ fits q.1 (Equiv.swap k k' q.2) := by
    intro q hq
    by_cases hk : q.2 = k
    · rw [hk, Equiv.swap_apply_left]
      exact ⟨⟨hmem, fun he => unused q hq (hk.trans he.symm)⟩, hstand q.1 (hk ▸ h.fit q hq)⟩
    · rw [Equiv.swap_apply_of_ne_of_ne hk (unused q hq)]
      exact ⟨⟨h.item_mem q hq, hk⟩, h.fit q hq⟩
  constructor
  · simpa [map_map, Function.comp_def] using h.places
  · have hitems := h.items.map (Equiv.swap k k').injective
    simpa [map_map, Function.comp_def] using hitems
  · exact forall_mem_map.mpr h.place_mem
  · exact forall_mem_map.mpr fun q hq => (hswap q hq).1
  · exact forall_mem_map.mpr fun q hq => (hswap q hq).2

/-- **The matching of the others is at most one pair smaller.** -/
theorem exists_without (h : Matching fits (n :: ns) free pairs)
    (hleast : ∀ k' ∈ free, fits n k' → ∀ m, fits m k → fits m k') :
    ∃ pairs', Matching fits ns (free \ {k}) pairs' ∧ pairs.length ≤ pairs'.length + 1 ∧
      ∀ q ∈ pairs', ∃ q' ∈ pairs, q'.1 = q.1 := by
  classical
  by_cases hn : ∃ k', (n, k') ∈ pairs
  · -- the pair of the place goes, and its item is used instead of the one that was taken
    obtain ⟨k', hk'⟩ := hn
    have hrest := (h.filter fun q => q.1 ≠ n).of_cons (by simp)
    have unused : ∀ q ∈ pairs.filter (fun q => q.1 ≠ n), q.2 ≠ k' := by
      intro q hq he
      obtain ⟨hq, hne⟩ := mem_filter.mp hq
      have heq := inj_on_of_nodup_map h.items hq hk' he
      simp [heq] at hne
    refine ⟨_, hrest.exchange (h.item_mem _ hk') unused (hleast k' (h.item_mem _ hk') (h.fit _ hk')), ?_, ?_⟩
    · simpa using length_le_filter_ne_add_one h.places n
    · intro q hq
      obtain ⟨q', hq', rfl⟩ := mem_map.mp hq
      exact ⟨q', mem_of_mem_filter hq', rfl⟩
  · -- the pair with the item that was taken goes
    have hne : ∀ q ∈ pairs, q.1 ≠ n := fun q hq he => hn ⟨q.2, he ▸ hq⟩
    have hrest := ((h.of_cons hne).filter fun q => q.2 ≠ k).diff (k := k) (by simp)
    exact ⟨_, hrest, length_le_filter_ne_add_one h.items k, fun q hq => ⟨q, mem_of_mem_filter hq, rfl⟩⟩

end Matching

namespace Greedy

theorem matching (h : Greedy fits ns free pairs) (hns : ns.Nodup) : Matching fits ns free pairs := by
  induction h with
  | nil => exact ⟨by simp, by simp, by simp, by simp, by simp⟩
  | skip _ _ ih =>
    have hrest := ih (nodup_cons.mp hns).2
    exact { hrest with place_mem := fun q hq => mem_cons_of_mem _ (hrest.place_mem q hq) }
  | @take n ns free k pairs mem fit least rest ih =>
    obtain ⟨hnew, hns⟩ := nodup_cons.mp hns
    have hrest := ih hns
    constructor
    · rw [map_cons, nodup_cons]
      refine ⟨fun hm => ?_, hrest.places⟩
      obtain ⟨q, hq, rfl⟩ := mem_map.mp hm
      exact hnew (hrest.place_mem q hq)
    · rw [map_cons, nodup_cons]
      refine ⟨fun hm => ?_, hrest.items⟩
      obtain ⟨q, hq, rfl⟩ := mem_map.mp hm
      exact (hrest.item_mem q hq).2 rfl
    · exact forall_mem_cons.mpr ⟨mem_cons_self, fun q hq => mem_cons_of_mem _ (hrest.place_mem q hq)⟩
    · exact forall_mem_cons.mpr ⟨mem, fun q hq => (hrest.item_mem q hq).1⟩
    · exact forall_mem_cons.mpr ⟨fit, hrest.fit⟩

theorem length_le_countP {kind : ν → Bool} (hkind : ∀ m m' k, fits m k → fits m' k → kind m = kind m')
    (h : Greedy fits ns free pairs) : ∀ {pairs'}, Matching fits ns free pairs' →
    (∀ q ∈ pairs', kind q.1) → pairs'.length ≤ pairs.countP fun q => kind q.1 := by
  induction h with
  | nil =>
    intro pairs' hm _
    have hnil : pairs' = [] := eq_nil_iff_forall_not_mem.mpr fun q hq => by simpa using hm.place_mem q hq
    simp [hnil]
  | skip unfit _ ih =>
    intro pairs' hm hk
    refine ih (hm.of_cons fun q hq he => ?_) hk
    exact unfit q.2 (hm.item_mem q hq) (he ▸ hm.fit q hq)
  | @take n ns free k pairs mem fit least rest ih =>
    intro pairs' hm hk
    rw [countP_cons]
    cases hn : kind n with
    | true =>
      obtain ⟨pairs'', hm', hlen, hold⟩ := hm.exists_without least
      have hle := ih hm' fun q hq => by
        obtain ⟨q', hq', he⟩ := hold q hq
        exact he ▸ hk q' hq'
      simp only [if_pos]
      omega
    | false =>
      -- neither the place nor its item is of the kind
      have hplace : ∀ q ∈ pairs', q.1 ≠ n := fun q hq he => by simpa [he, hn] using hk q hq
      have hitem : ∀ q ∈ pairs', q.2 ≠ k := fun q hq he => by
        have hsame := hkind q.1 n k (he ▸ hm.fit q hq) fit
        simp [hk q hq, hn] at hsame
      have hle := ih ((hm.of_cons hplace).diff hitem) hk
      simpa using hle

end Greedy

end Nexus.Lib
