import Mathlib.Algebra.BigOperators.Group.List.Basic
import Mathlib.Algebra.Ring.Nat
import Mathlib.Logic.Function.Basic

/-!
# Sums of machine integers

Additions and subtractions of 64-bit integers that fail where the result is not one. `Totals` are sums of wholes, of
used parts and of what is left, for several kinds at once (`addAt`). They come out exactly if no part is larger than its
whole and the sum of the wholes is a 64-bit integer (`isSome_foldlM_addAt_iff`, `foldlM_addAt_exact`).
-/

namespace Nexus.Lib

open Function List Option

/-! ## One operation -/

def checkedAdd (a b : UInt64) : Option UInt64 := if a.toNat + b.toNat < 2 ^ 64 then some (a + b) else none

def checkedSub (a b : UInt64) : Option UInt64 := if b.toNat ≤ a.toNat then some (a - b) else none

theorem checkedAdd_eq_some {a b c} : checkedAdd a b = some c ↔ c.toNat = a.toNat + b.toNat := by
  have hc := c.toNat_lt
  rw [checkedAdd]
  split
  · next h =>
    have hsum : (a + b).toNat = a.toNat + b.toNat := by rw [UInt64.toNat_add, Nat.mod_eq_of_lt h]
    rw [some.injEq, ← UInt64.toNat_inj, hsum, eq_comm]
  · next h => exact iff_of_false nofun (by omega)

theorem checkedSub_eq_some {a b c} : checkedSub a b = some c ↔ c.toNat + b.toNat = a.toNat := by
  rw [checkedSub]
  split
  · next h =>
    have hdiff : (a - b).toNat = a.toNat - b.toNat := UInt64.toNat_sub_of_le a b (UInt64.le_iff_toNat_le.mpr h)
    rw [some.injEq, ← UInt64.toNat_inj, hdiff]
    omega
  · next h => exact iff_of_false nofun (by omega)

/-! ## One sum -/

/-- A whole and the part of it that is used. -/
structure Share where
  (whole part : UInt64)

structure Totals where
  (total used avail : UInt64)

namespace Totals

def zero : Totals := ⟨0, 0, 0⟩

def add (t : Totals) (s : Share) : Option Totals := do
  let total ← checkedAdd t.total s.whole
  let used ← checkedAdd t.used s.part
  let rest ← checkedSub s.whole s.part
  let avail ← checkedAdd t.avail rest
  return ⟨total, used, avail⟩

def Balanced (t : Totals) : Prop := t.avail.toNat + t.used.toNat = t.total.toNat

theorem balanced_zero : zero.Balanced := rfl

variable {t t' : Totals} {s : Share}

theorem add_eq_some (ht : t.Balanced) : t.add s = some t' ↔ s.part.toNat ≤ s.whole.toNat ∧ t'.Balanced ∧
    t'.total.toNat = t.total.toNat + s.whole.toNat ∧ t'.used.toNat = t.used.toNat + s.part.toNat := by
  obtain ⟨total', used', avail'⟩ := t'
  simp only [add, Option.bind_eq_bind, Option.bind_eq_some_iff, checkedAdd_eq_some, checkedSub_eq_some, Option.pure_def,
    Option.some.injEq, mk.injEq, Balanced] at ht ⊢
  constructor
  · rintro ⟨_, htot, _, hused, rest, hrest, _, havail, rfl, rfl, rfl⟩
    omega
  · rintro ⟨hle, hbal, htot, hused⟩
    have hrest : (s.whole - s.part).toNat = s.whole.toNat - s.part.toNat :=
      UInt64.toNat_sub_of_le _ _ (UInt64.le_iff_toNat_le.mpr hle)
    exact ⟨total', htot, used', hused, s.whole - s.part, by omega, avail', by omega, rfl, rfl, rfl⟩

theorem exists_add (ht : t.Balanced) (hle : s.part.toNat ≤ s.whole.toNat)
    (hlt : t.total.toNat + s.whole.toNat < 2 ^ 64) : ∃ t', t.add s = some t' := by
  have hrest : ∀ n < 2 ^ 64, (UInt64.ofNat n).toNat = n := fun n hn => UInt64.toNat_ofNat_of_lt' hn
  rw [Balanced] at ht
  refine ⟨⟨UInt64.ofNat (t.total.toNat + s.whole.toNat), UInt64.ofNat (t.used.toNat + s.part.toNat),
    UInt64.ofNat (t.avail.toNat + (s.whole.toNat - s.part.toNat))⟩, (add_eq_some ht).mpr ⟨hle, ?_, ?_, ?_⟩⟩
  · rw [Balanced]
    simp only
    rw [hrest _ (by omega), hrest _ (by omega), hrest _ (by omega)]
    omega
  · exact hrest _ (by omega)
  · exact hrest _ (by omega)

end Totals

/-! ## Sums for several kinds -/

variable {ι : Type*} [DecidableEq ι]

def addAt (ts : ι → Totals) (e : ι × Share) : Option (ι → Totals) := ((ts e.1).add e.2).map (update ts e.1)

def sharesOf (i : ι) (es : List (ι × Share)) : List Share := es.filterMap fun e => if e.1 = i then some e.2 else none

/-- The sum of the wholes fits, and no part is more than its whole. -/
structure Representable (start : Nat) (ss : List Share) : Prop where
  part_le : ∀ s ∈ ss, s.part.toNat ≤ s.whole.toNat
  sum_lt : start + (ss.map fun s => s.whole.toNat).sum < 2 ^ 64

variable {ts ts' : ι → Totals} {e : ι × Share}

theorem addAt_eq_some : addAt ts e = some ts' ↔ ∃ t, (ts e.1).add e.2 = some t ∧ update ts e.1 t = ts' :=
  map_eq_some_iff

theorem sharesOf_cons (i : ι) (e) (es) :
    sharesOf i (e :: es) = if e.1 = i then e.2 :: sharesOf i es else sharesOf i es := by
  rw [sharesOf, filterMap_cons]
  split <;> simp_all [sharesOf]

theorem Representable.cons_iff {start s ss} : Representable start (s :: ss) ↔
    s.part.toNat ≤ s.whole.toNat ∧ Representable (start + s.whole.toNat) ss := by
  constructor
  · rintro ⟨hle, hlt⟩
    rw [forall_mem_cons] at hle
    rw [map_cons, sum_cons] at hlt
    exact ⟨hle.1, hle.2, by omega⟩
  · rintro ⟨hle, hall, hlt⟩
    refine ⟨forall_mem_cons.mpr ⟨hle, hall⟩, ?_⟩
    rw [map_cons, sum_cons]
    omega

theorem balanced_update (hb : ∀ i, (ts i).Balanced) {i t} (ht : t.Balanced) : ∀ j, (update ts i t j).Balanced := by
  intro j
  by_cases hj : j = i
  · rw [hj, update_self]
    exact ht
  · rw [update_of_ne hj]
    exact hb j

theorem foldlM_addAt_exact : ∀ (es : List (ι × Share)) {ts ts' : ι → Totals}, (∀ i, (ts i).Balanced) →
    es.foldlM addAt ts = some ts' → ∀ i, (ts' i).Balanced ∧
      (ts' i).total.toNat = (ts i).total.toNat + ((sharesOf i es).map fun s => s.whole.toNat).sum ∧
      (ts' i).used.toNat = (ts i).used.toNat + ((sharesOf i es).map fun s => s.part.toNat).sum
  | [], ts, ts', hb, h, i => by
    obtain rfl : ts = ts' := some.inj h
    exact ⟨hb i, rfl, rfl⟩
  | e :: es, ts, ts', hb, h, i => by
    obtain ⟨ts₁, hadd, hrest⟩ := bind_eq_some_iff.mp h
    obtain ⟨t, ht, rfl⟩ := addAt_eq_some.mp hadd
    obtain ⟨-, hbal, total, hused⟩ := (Totals.add_eq_some (hb e.1)).mp ht
    obtain ⟨hbi, htotal, husedi⟩ := foldlM_addAt_exact es (balanced_update hb hbal) hrest i
    refine ⟨hbi, ?_⟩
    rw [sharesOf_cons]
    by_cases hi : e.1 = i
    · subst hi
      rw [update_self] at htotal husedi
      rw [if_pos rfl, map_cons, sum_cons, map_cons, sum_cons]
      omega
    · rw [update_of_ne (Ne.symm hi)] at htotal husedi
      rw [if_neg hi]
      exact ⟨htotal, husedi⟩

theorem isSome_foldlM_addAt_iff : ∀ (es : List (ι × Share)) {ts : ι → Totals}, (∀ i, (ts i).Balanced) →
    ((es.foldlM addAt ts).isSome ↔ ∀ i, Representable (ts i).total.toNat (sharesOf i es))
  | [], ts, hb => by
    refine iff_of_true rfl fun i => ⟨by simp [sharesOf], ?_⟩
    simpa [sharesOf] using (ts i).total.toNat_lt
  | e :: es, ts, hb => by
    -- the first share is added where it fits, and the others are added to what comes out
    have hrep : ∀ t, (ts e.1).add e.2 = some t → ((∀ i, Representable (ts i).total.toNat (sharesOf i (e :: es))) ↔
        ∀ i, Representable (update ts e.1 t i).total.toNat (sharesOf i es)) := by
      intro t ht
      obtain ⟨hle, -, total, -⟩ := (Totals.add_eq_some (hb e.1)).mp ht
      refine forall_congr' fun i => ?_
      rw [sharesOf_cons]
      by_cases hi : e.1 = i
      · subst hi
        rw [if_pos rfl, update_self, total, Representable.cons_iff]
        exact and_iff_right hle
      · rw [if_neg hi, update_of_ne (Ne.symm hi)]
    rw [foldlM_cons]
    constructor
    · intro h
      obtain ⟨ts', hts'⟩ := isSome_iff_exists.mp h
      obtain ⟨ts₁, hadd, hrest⟩ := bind_eq_some_iff.mp hts'
      obtain ⟨t, ht, rfl⟩ := addAt_eq_some.mp hadd
      obtain ⟨-, hbal, -, -⟩ := (Totals.add_eq_some (hb e.1)).mp ht
      rw [hrep t ht, ← isSome_foldlM_addAt_iff es (balanced_update hb hbal), hrest]
      rfl
    · intro h
      have he := h e.1
      rw [sharesOf_cons, if_pos rfl, Representable.cons_iff] at he
      obtain ⟨t, ht⟩ := Totals.exists_add (hb e.1) he.1 (Nat.lt_of_le_of_lt (Nat.le_add_right _ _) he.2.sum_lt)
      obtain ⟨-, hbal, -, -⟩ := (Totals.add_eq_some (hb e.1)).mp ht
      rw [addAt_eq_some.mpr ⟨t, ht, rfl⟩]
      exact (isSome_foldlM_addAt_iff es (balanced_update hb hbal)).mpr ((hrep t ht).mp h)

end Nexus.Lib
