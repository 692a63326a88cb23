import Mathlib.Order.Lattice

/-!
# Binary search

The search of the standard library of Rust in a list that is sorted by a key. It halves the window without looking for
equality, and compares once more at the end. What is found has the key (`key_eq_of_search`), and where nothing is found
the result is the place where the key would go (`search_eq_error`). In both cases an item with the key can be inserted
there (`pairwise_insertIdx`).
-/

namespace Nexus.Lib.BinarySearch

open List

variable {α κ : Type*} [LinearOrder κ]

/-- The window has `size` items from `base` on. -/
def narrow (key : α → κ) (k : κ) (l : List α) : Nat → Nat → Nat → Nat
  | 0, base, _ => base
  | fuel + 1, base, size =>
    if 1 < size then
      let half := size / 2
      let mid := base + half
      narrow key k l fuel (if (l[mid]?).any fun a => k < key a then base else mid) (size - half)
    else base

def search (key : α → κ) (k : κ) (l : List α) : Except Nat Nat :=
  let base := narrow key k l l.length 0 l.length
  match l[base]? with
  | none => .error 0
  | some a => if key a = k then .ok base else .error (if key a < k then base + 1 else base)

variable {key : α → κ} {k : κ} {l : List α}

structure Window (key : α → κ) (k : κ) (l : List α) (base size : Nat) : Prop where
  pos : 0 < size
  le_length : base + size ≤ l.length
  below : 0 < base → ∀ a, l[base]? = some a → key a ≤ k
  above : ∀ j a, base + size ≤ j → l[j]? = some a → k < key a

theorem key_le_of_le (hsort : l.Pairwise fun a b => key a ≤ key b) {i j : Nat} {a b : α} (hij : i ≤ j)
    (ha : l[i]? = some a) (hb : l[j]? = some b) : key a ≤ key b := by
  obtain ⟨hi, rfl⟩ := List.getElem?_eq_some_iff.mp ha
  obtain ⟨hj, rfl⟩ := List.getElem?_eq_some_iff.mp hb
  obtain rfl | hlt := Nat.eq_or_lt_of_le hij
  · exact le_rfl
  · exact List.pairwise_iff_getElem.mp hsort i j hi hj hlt

theorem Window.halve (hsort : l.Pairwise fun a b => key a ≤ key b) {base size : Nat} (h : Window key k l base size)
    (hsize : 1 < size) :
    Window key k l (if (l[base + size / 2]?).any fun a => k < key a then base else base + size / 2)
      (size - size / 2) := by
  have hlen := h.le_length
  have hmid : l[base + size / 2]? = some (l[base + size / 2]) := getElem?_eq_getElem (by omega)
  rw [hmid, Option.any_some]
  by_cases hgt : k < key l[base + size / 2]
  · rw [if_pos (decide_eq_true hgt)]
    refine ⟨by omega, by omega, h.below, fun j a hj ha => ?_⟩
    exact lt_of_lt_of_le hgt (key_le_of_le hsort (by omega) hmid ha)
  · rw [if_neg (by simpa using hgt)]
    refine ⟨by omega, by omega, fun _ a ha => ?_, fun j a hj ha => h.above j a (by omega) ha⟩
    rw [hmid] at ha
    obtain rfl := Option.some.inj ha
    exact not_lt.mp hgt

theorem Window.narrow (hsort : l.Pairwise fun a b => key a ≤ key b) : ∀ {fuel base size},
    Window key k l base size → size ≤ fuel → Window key k l (narrow key k l fuel base size) 1
  | 0, _, _, h, hfuel => absurd h.pos (by omega)
  | fuel + 1, base, size, h, hfuel => by
    unfold BinarySearch.narrow
    split
    · next hsize => exact Window.narrow hsort (h.halve hsort hsize) (by omega)
    · next hsize =>
      have hpos := h.pos
      obtain rfl : size = 1 := by omega
      exact h

theorem window_search (hsort : l.Pairwise fun a b => key a ≤ key b) (hne : l ≠ []) :
    Window key k l (narrow key k l l.length 0 l.length) 1 := by
  have hpos := List.length_pos_iff.mpr hne
  refine Window.narrow hsort ⟨hpos, by omega, fun h => absurd h (by omega), fun j a hj ha => ?_⟩ (Nat.le_refl _)
  obtain ⟨hlt, -⟩ := List.getElem?_eq_some_iff.mp ha
  omega

theorem key_eq_of_search {i} (h : search key k l = .ok i) : ∃ a, l[i]? = some a ∧ key a = k := by
  unfold search at h
  simp only at h
  split at h
  · cases h
  · next a ha =>
    split at h
    · next hkey =>
      cases h
      exact ⟨a, ha, hkey⟩
    · cases h

section

variable (hsort : l.Pairwise fun a b => key a ≤ key b)

include hsort

theorem search_eq_error {i : Nat} (h : search key k l = .error i) :
    i ≤ l.length ∧ (∀ j a, j < i → l[j]? = some a → key a < k) ∧ ∀ j a, i ≤ j → l[j]? = some a → k < key a := by
  by_cases hne : l = []
  · subst hne
    cases h
    exact ⟨Nat.le_refl _, by simp, by simp⟩
  · have hwin : Window key k l (narrow key k l l.length 0 l.length) 1 := window_search hsort hne
    have hlen := hwin.le_length
    unfold search at h
    simp only at h
    generalize narrow key k l l.length 0 l.length = base at hwin hlen h
    have hbase : l[base]? = some (l[base]) := getElem?_eq_getElem (by omega)
    rw [hbase] at h
    simp only at h
    split at h
    · cases h
    · next hkey =>
      cases h
      split
      · next hless =>
        refine ⟨by omega, fun j a hj ha => ?_, fun j a hj ha => hwin.above j a hj ha⟩
        exact lt_of_le_of_lt (key_le_of_le hsort (by omega) ha hbase) hless
      · next hless =>
        have hgt : k < key l[base] := lt_of_le_of_ne (not_lt.mp hless) (Ne.symm hkey)
        -- the last comparison finds a larger item only at the beginning
        obtain rfl : base = 0 := by
          by_contra hpos
          exact absurd (hwin.below (by omega) _ hbase) (not_le.mpr hgt)
        refine ⟨by omega, fun j a hj => absurd hj (by omega), fun j a hj ha => ?_⟩
        exact lt_of_lt_of_le hgt (key_le_of_le hsort hj hbase ha)

theorem exists_search {a} (ha : a ∈ l) (hkey : key a = k) : ∃ i, search key k l = .ok i := by
  cases h : search key k l with
  | ok i => exact ⟨i, rfl⟩
  | error i =>
    obtain ⟨-, hless, hgt⟩ := search_eq_error hsort h
    obtain ⟨j, hj⟩ := mem_iff_getElem?.mp ha
    rcases Nat.lt_or_ge j i with hlt | hge
    · exact absurd hkey (hless j a hlt hj).ne
    · exact absurd hkey (hgt j a hge hj).ne'

/-! ## Inserting at the place -/

def place (key : α → κ) (k : κ) (l : List α) : Nat :=
  match search key k l with
  | .ok i => i
  | .error i => i

theorem place_spec (k) : place key k l ≤ l.length ∧
    (∀ a ∈ l.take (place key k l), key a ≤ k) ∧ ∀ a ∈ l.drop (place key k l), k ≤ key a := by
  have hitems : ∀ i, i ≤ l.length → (∀ j a, j < i → l[j]? = some a → key a ≤ k) →
      (∀ j a, i ≤ j → l[j]? = some a → k ≤ key a) →
      i ≤ l.length ∧ (∀ a ∈ l.take i, key a ≤ k) ∧ ∀ a ∈ l.drop i, k ≤ key a := by
    refine fun i hi before after => ⟨hi, fun a ha => ?_, fun a ha => ?_⟩
    · obtain ⟨j, hj, rfl⟩ := List.mem_take_iff_getElem.mp ha
      exact before j _ (by omega) (List.getElem?_eq_getElem _)
    · obtain ⟨j, hj, rfl⟩ := List.mem_drop_iff_getElem.mp ha
      exact after (i + j) _ (by omega) (List.getElem?_eq_getElem _)
  unfold place
  cases h : search key k l with
  | ok i =>
    obtain ⟨a, ha, rfl⟩ := key_eq_of_search h
    obtain ⟨hi, -⟩ := List.getElem?_eq_some_iff.mp ha
    exact hitems i (Nat.le_of_lt hi) (fun j b hj hb => key_le_of_le hsort (Nat.le_of_lt hj) hb ha)
      fun j b hj hb => key_le_of_le hsort hj ha hb
  | error i =>
    obtain ⟨hi, hless, hgt⟩ := search_eq_error hsort h
    exact hitems i hi (fun j a hj ha => (hless j a hj ha).le) fun j a hj ha => (hgt j a hj ha).le

end

theorem insertIdx_eq_append (x : α) : ∀ {i : Nat} {l : List α}, i ≤ l.length →
    l.insertIdx i x = l.take i ++ x :: l.drop i
  | 0, _, _ => rfl
  | i + 1, [], h => absurd h (by simp)
  | i + 1, a :: l, h => by
    rw [insertIdx_succ_cons, insertIdx_eq_append x (Nat.le_of_succ_le_succ h)]
    rfl

theorem pairwise_insertIdx (hsort : l.Pairwise fun a b => key a ≤ key b) (x : α) :
    (l.insertIdx (place key (key x) l) x).Pairwise fun a b => key a ≤ key b := by
  obtain ⟨hle, before, after⟩ := place_spec hsort (key x)
  rw [insertIdx_eq_append x hle]
  refine pairwise_append.mpr ⟨hsort.sublist (take_sublist _ _),
    pairwise_cons.mpr ⟨after, hsort.sublist (drop_sublist _ _)⟩, fun a ha b hb => ?_⟩
  obtain rfl | hb := mem_cons.mp hb
  · exact before a ha
  · exact (before a ha).trans (after b hb)

end Nexus.Lib.BinarySearch
