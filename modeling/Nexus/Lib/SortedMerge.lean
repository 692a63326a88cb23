import Mathlib.Data.List.Sort
import Mathlib.Order.Compare

/-!
# Sorting and merging descending lists

A comparison `cmp : α → α → Ordering` comes from a key in a linear order (`hkey`). `sortDesc` sorts by it, largest
first; `dedup` drops neighbours that are the same element; `merge` walks two lists from their heads, and of two heads
with one key it takes the left one (`desc_merge`, `mem_merge_left`, `mem_merge_right`, `merge_merge_self`).
-/

namespace Nexus.Lib

open List

variable {α : Type} (cmp : α → α → Ordering) {x : α}

def mergeInto (rest : List α → List α) (a : α) (l : List α) : List α → List α
  | [] => a :: l
  | b :: r =>
    match cmp a b with
    | .gt => a :: rest (b :: r)
    | .lt => b :: mergeInto rest a l r
    | .eq => a :: rest r

/-- Of two equal heads the left one is taken and the right one dropped. -/
def merge : List α → List α → List α
  | [], r => r
  | a :: l, r => mergeInto cmp (merge l) a l r

@[simp] theorem merge_nil_left (r) : merge cmp [] r = r := rfl

@[simp] theorem merge_nil_right (l) : merge cmp l [] = l := by
  cases l <;> rfl

variable {cmp} {a b : α}

theorem merge_gt (h : cmp a b = .gt) (l) (r) : merge cmp (a :: l) (b :: r) = a :: merge cmp l (b :: r) := by
  simp only [merge, mergeInto, h]

theorem merge_lt (h : cmp a b = .lt) (l) (r) : merge cmp (a :: l) (b :: r) = b :: merge cmp (a :: l) r := by
  simp only [merge, mergeInto, h]

theorem merge_eq (h : cmp a b = .eq) (l) (r) : merge cmp (a :: l) (b :: r) = a :: merge cmp l r := by
  simp only [merge, mergeInto, h]

theorem merge_induction (cmp : α → α → Ordering) {motive : List α → List α → Prop} (nil_left : ∀ r, motive [] r)
    (nil_right : ∀ a l, motive (a :: l) [])
    (gt : ∀ a l b r, cmp a b = .gt → motive l (b :: r) → motive (a :: l) (b :: r))
    (lt : ∀ a l b r, cmp a b = .lt → motive (a :: l) r → motive (a :: l) (b :: r))
    (eq : ∀ a l b r, cmp a b = .eq → motive l r → motive (a :: l) (b :: r)) : ∀ l r, motive l r
  | [], r => nil_left r
  | a :: l, [] => nil_right a l
  | a :: l, b :: r => by
    cases h : cmp a b with
    | gt => exact gt a l b r h (merge_induction cmp nil_left nil_right gt lt eq l (b :: r))
    | lt => exact lt a l b r h (merge_induction cmp nil_left nil_right gt lt eq (a :: l) r)
    | eq => exact eq a l b r h (merge_induction cmp nil_left nil_right gt lt eq l r)

/-! ## Content -/

theorem mem_of_mem_merge (l r : List α) : x ∈ merge cmp l r → x ∈ l ∨ x ∈ r := by
  induction l, r using merge_induction cmp with
  | nil_left => simp
  | nil_right => simp
  | gt _ _ _ _ h => rw [merge_gt h]; grind
  | lt _ _ _ _ h => rw [merge_lt h]; grind
  | eq _ _ _ _ h => rw [merge_eq h]; grind

theorem mem_merge_left (l r : List α) : x ∈ l → x ∈ merge cmp l r := by
  induction l, r using merge_induction cmp with
  | nil_left => simp
  | nil_right => simp
  | gt _ _ _ _ h => rw [merge_gt h]; grind
  | lt _ _ _ _ h => rw [merge_lt h]; grind
  | eq _ _ _ _ h => rw [merge_eq h]; grind

theorem mem_merge_right (l r : List α) : x ∈ r → x ∈ merge cmp l r ∨ ∃ y ∈ l, cmp y x = .eq := by
  induction l, r using merge_induction cmp with
  | nil_left => simp
  | nil_right => simp
  | gt _ _ _ _ h => rw [merge_gt h]; grind
  | lt _ _ _ _ h => rw [merge_lt h]; grind
  | eq _ _ _ _ h => rw [merge_eq h]; grind

theorem filter_merge {p} (l r : List α) : (∀ x ∈ l, p x) → (∀ x ∈ r, p x = false) → (merge cmp l r).filter p = l := by
  induction l, r using merge_induction cmp with
  | nil_left => simp +contextual
  | nil_right =>
    intro hl _
    rw [merge_nil_right]
    exact filter_eq_self.mpr hl
  | gt _ _ _ _ h => rw [merge_gt h]; grind
  | lt _ _ _ _ h => rw [merge_lt h]; grind
  | eq _ _ _ _ h => rw [merge_eq h]; grind

/-! ## Merging again -/

variable (refl : ∀ a, cmp a a = .eq)

include refl in
theorem merge_self : ∀ l, merge cmp l l = l
  | [] => rfl
  | a :: l => by rw [merge_eq (refl a), merge_self l]

include refl in
theorem merge_merge_self (l r : List α) : merge cmp (merge cmp l r) r = merge cmp l r := by
  induction l, r using merge_induction cmp with
  | nil_left r => exact merge_self refl r
  | nil_right => rw [merge_nil_right, merge_nil_right]
  | gt _ _ _ _ h ih => rw [merge_gt h, merge_gt h, ih]
  | lt _ _ b _ h ih => rw [merge_lt h, merge_eq (refl b), ih]
  | eq _ _ _ _ h ih => rw [merge_eq h, merge_eq h, ih]

/-! ## Strictly descending lists -/

variable {κ : Type} [LinearOrder κ] {cmp : α → α → Ordering} {key : α → κ}

def Desc (key : α → κ) (l : List α) : Prop := l.Pairwise fun a b => key b < key a

theorem Desc.eq_of_mem_iff {l r} (hl : Desc key l) (hr : Desc key r) (h : ∀ a, a ∈ l ↔ a ∈ r) : l = r := by
  have irrefl : ∀ a, ¬ key a < key a := fun a => lt_irrefl (key a)
  have antisymm : ∀ a b, key b < key a → key a < key b → a = b := fun a b h₁ h₂ => absurd h₁ (lt_asymm h₂)
  have : Std.Irrefl fun a b : α => key b < key a := ⟨irrefl⟩
  have : Std.Antisymm fun a b : α => key b < key a := ⟨antisymm⟩
  exact List.Pairwise.eq_of_mem_iff hl hr h

theorem Desc.eq_of_key_eq {l} (h : Desc key l) {y} (hx : x ∈ l) (hy : y ∈ l) (e : key x = key y) : x = y := by
  by_contra hne
  have hlt := List.Pairwise.forall_of_forall_of_flip (R := fun a b => a = b ∨ key a ≠ key b)
    (fun _ _ => .inl rfl) (h.imp fun h => .inr (ne_of_gt h)) (h.imp fun h => .inr (ne_of_lt h)) hx hy
  rcases hlt with rfl | hk
  · exact hne rfl
  · exact hk e

variable (hkey : ∀ a b, cmp a b = compare (key a) (key b))

include hkey in
theorem pairwise_merge {R : κ → κ → Prop} (hlt : ∀ a b, a < b → R a b) (htrans : ∀ a b c, R a b → b < c → R a c)
    (l r : List α) : l.Pairwise (fun a b => R (key b) (key a)) → r.Pairwise (fun a b => R (key b) (key a)) →
      (merge cmp l r).Pairwise fun a b => R (key b) (key a) := by
  induction l, r using merge_induction cmp with
  | nil_left => exact fun _ h => h
  | nil_right => exact fun h _ => by rwa [merge_nil_right]
  | gt a _ b _ h ih =>
    intro hl hr
    obtain ⟨hal, hl⟩ := pairwise_cons.mp hl
    have hba : key b < key a := compare_gt_iff_gt.mp (hkey a b ▸ h)
    rw [merge_gt h]
    refine pairwise_cons.mpr ⟨fun x hx => ?_, ih hl hr⟩
    rcases mem_of_mem_merge _ _ hx with hx | hx
    · exact hal x hx
    · rcases mem_cons.mp hx with rfl | hx
      · exact hlt _ _ hba
      · exact htrans _ _ _ ((pairwise_cons.mp hr).1 x hx) hba
  | lt a _ b _ h ih =>
    intro hl hr
    obtain ⟨hbr, hr⟩ := pairwise_cons.mp hr
    have hab : key a < key b := compare_lt_iff_lt.mp (hkey a b ▸ h)
    rw [merge_lt h]
    refine pairwise_cons.mpr ⟨fun x hx => ?_, ih hl hr⟩
    rcases mem_of_mem_merge _ _ hx with hx | hx
    · rcases mem_cons.mp hx with rfl | hx
      · exact hlt _ _ hab
      · exact htrans _ _ _ ((pairwise_cons.mp hl).1 x hx) hab
    · exact hbr x hx
  | eq a _ b _ h ih =>
    intro hl hr
    obtain ⟨hal, hl⟩ := pairwise_cons.mp hl
    obtain ⟨hbr, hr⟩ := pairwise_cons.mp hr
    have hab : key a = key b := compare_eq_iff_eq.mp (hkey a b ▸ h)
    rw [merge_eq h]
    refine pairwise_cons.mpr ⟨fun x hx => ?_, ih hl hr⟩
    rcases mem_of_mem_merge _ _ hx with hx | hx
    · exact hal x hx
    · exact hab ▸ hbr x hx

include hkey in
theorem desc_merge (l) (r) : Desc key l → Desc key r → Desc key (merge cmp l r) :=
  pairwise_merge hkey (fun _ _ h => h) (fun _ _ _ => lt_trans) l r

/-- The elements with one key are those of the left list, and then those of the right list without as many. -/
theorem filter_key_merge (hkey : ∀ a b, cmp a b = compare (key a) (key b)) (k : κ) (l r : List α) :
    l.Pairwise (fun a b => key b ≤ key a) → r.Pairwise (fun a b => key b ≤ key a) → (merge cmp l r).filter (key · = k) =
        l.filter (key · = k) ++ (r.filter (key · = k)).drop (l.filter (key · = k)).length := by
  -- a key above the head of a list is not in it
  have above : ∀ {a b} {xs}, key b < key a → (b :: xs).Pairwise (fun a b => key b ≤ key a) → key a = k →
      (b :: xs).filter (key · = k) = [] := by
    rintro a b xs hlt hxs rfl
    refine filter_eq_nil_iff.mpr fun x hx => ?_
    have hle : key x ≤ key b := (mem_cons.mp hx).elim (fun e => (congrArg key e).le)
      ((pairwise_cons.mp hxs).1 x)
    simpa using ne_of_lt (lt_of_le_of_lt hle hlt)
  induction l, r using merge_induction cmp with
  | nil_left => simp
  | nil_right => simp
  | gt a _ b _ h ih =>
    intro hl hr
    have hba : key b < key a := compare_gt_iff_gt.mp (hkey a b ▸ h)
    rw [merge_gt h, filter_cons, ih hl.of_cons hr]
    by_cases ha : key a = k
    · simp [ha, above hba hr ha]
    · simp [ha]
  | lt a _ b _ h ih =>
    intro hl hr
    have hab : key a < key b := compare_lt_iff_lt.mp (hkey a b ▸ h)
    rw [merge_lt h, filter_cons, ih hl hr.of_cons]
    by_cases hb : key b = k
    · simp [hb, above hab hl hb]
    · simp [hb]
  | eq a _ b _ h ih =>
    intro hl hr
    have hab : key a = key b := compare_eq_iff_eq.mp (hkey a b ▸ h)
    rw [merge_eq h, filter_cons, ih hl.of_cons hr.of_cons]
    by_cases ha : key a = k
    · simp [ha, hab ▸ ha]
    · simp [ha, hab ▸ ha]

include hkey in
theorem mem_of_mem_merge_append {r} (l m : List α) : Desc key l → Desc key m →
    x ∈ merge cmp l (m ++ r) → x ∈ l ∨ x ∈ r ∨ (x ∈ m ∧ ∀ y ∈ l, key y ≠ key x) := by
  induction l, m using merge_induction cmp with
  | nil_left =>
    intro _ _ hx
    rcases mem_append.mp hx with hx | hx
    · exact .inr (.inr ⟨hx, by simp⟩)
    · exact .inr (.inl hx)
  | nil_right => exact fun _ _ hx => (mem_of_mem_merge _ _ hx).imp_right .inl
  | gt a _ b _ h ih =>
    intro hl hm hx
    have hab : key b < key a := compare_gt_iff_gt.mp (hkey a b ▸ h)
    rw [cons_append, merge_gt h] at hx
    rcases mem_cons.mp hx with rfl | hx
    · exact .inl mem_cons_self
    · rcases ih hl.of_cons hm hx with hx | hx | ⟨hx, hne⟩
      · exact .inl (mem_cons_of_mem a hx)
      · exact .inr (.inl hx)
      · have hxa : key x < key a := by
          rcases mem_cons.mp hx with rfl | hx
          · exact hab
          · exact lt_trans ((pairwise_cons.mp hm).1 x hx) hab
        exact .inr (.inr ⟨hx, forall_mem_cons.mpr ⟨ne_of_gt hxa, hne⟩⟩)
  | lt a _ b _ h ih =>
    intro hl hm hx
    have hab : key a < key b := compare_lt_iff_lt.mp (hkey a b ▸ h)
    rw [cons_append, merge_lt h] at hx
    rcases mem_cons.mp hx with rfl | hx
    · refine .inr (.inr ⟨mem_cons_self, fun y hy => ?_⟩)
      rcases mem_cons.mp hy with rfl | hy
      · exact ne_of_lt hab
      · exact ne_of_lt (lt_trans ((pairwise_cons.mp hl).1 y hy) hab)
    · rcases ih hl hm.of_cons hx with hx | hx | ⟨hx, hne⟩
      · exact .inl hx
      · exact .inr (.inl hx)
      · exact .inr (.inr ⟨mem_cons_of_mem b hx, hne⟩)
  | eq a _ b _ h ih =>
    intro hl hm hx
    have hab : key a = key b := compare_eq_iff_eq.mp (hkey a b ▸ h)
    rw [cons_append, merge_eq h] at hx
    rcases mem_cons.mp hx with rfl | hx
    · exact .inl mem_cons_self
    · rcases ih hl.of_cons hm.of_cons hx with hx | hx | ⟨hx, hne⟩
      · exact .inl (mem_cons_of_mem a hx)
      · exact .inr (.inl hx)
      · have hxa : key x < key a := hab ▸ (pairwise_cons.mp hm).1 x hx
        exact .inr (.inr ⟨mem_cons_of_mem b hx, forall_mem_cons.mpr ⟨ne_of_gt hxa, hne⟩⟩)

include hkey in
theorem merge_append_of_lt (l) : ∀ m r, (∀ x ∈ l, ∀ a ∈ m, key x < key a) → merge cmp l (m ++ r) = m ++ merge cmp l r
  | [], _, _ => rfl
  | b :: m, r, h => by
    have ih := merge_append_of_lt l m r fun x hx a ha => h x hx a (mem_cons_of_mem b ha)
    cases l with
    | nil => rfl
    | cons a =>
      have hab : cmp a b = .lt := by
        rw [hkey]
        exact compare_lt_iff_lt.mpr (h a mem_cons_self b mem_cons_self)
      rw [cons_append, merge_lt hab, ih]
      rfl

include hkey in
theorem merge_append_append {l₂ r} (l₁ m : List α) : Desc key l₁ →
    (∀ x ∈ l₁, ∃ a ∈ m, key a ≤ key x) → (∀ x ∈ l₂, ∀ a ∈ m, key x < key a) →
    merge cmp (l₁ ++ l₂) (m ++ r) = merge cmp l₁ m ++ merge cmp l₂ r := by
  induction l₁, m using merge_induction cmp with
  | nil_left => exact fun _ _ h => merge_append_of_lt hkey _ _ _ h
  | nil_right a => exact fun _ h => absurd (h a mem_cons_self) (by simp)
  | gt a _ _ _ h ih =>
    intro hd h₁ h₂
    rw [cons_append, cons_append, merge_gt h, merge_gt h, ← cons_append,
      ih hd.of_cons (fun x hx => h₁ x (mem_cons_of_mem a hx)) h₂, cons_append]
  | lt a l b m h ih =>
    intro hd h₁ h₂
    have hab : key a < key b := compare_lt_iff_lt.mp (hkey a b ▸ h)
    have below : ∀ x ∈ a :: l, key x < key b := by
      intro x hx
      rcases mem_cons.mp hx with rfl | hx
      · exact hab
      · exact lt_trans ((pairwise_cons.mp hd).1 x hx) hab
    have h₁' : ∀ x ∈ a :: l, ∃ c ∈ m, key c ≤ key x := by
      intro x hx
      obtain ⟨c, hc, hcx⟩ := h₁ x hx
      rcases mem_cons.mp hc with rfl | hc
      · exact absurd hcx (not_le_of_gt (below x hx))
      · exact ⟨c, hc, hcx⟩
    rw [cons_append, cons_append, merge_lt h, merge_lt h, ← cons_append,
      ih hd h₁' (fun x hx c hc => h₂ x hx c (mem_cons_of_mem b hc)), cons_append]
  | eq a l b m h ih =>
    intro hd h₁ h₂
    have hab : key a = key b := compare_eq_iff_eq.mp (hkey a b ▸ h)
    have h₁' : ∀ x ∈ l, ∃ c ∈ m, key c ≤ key x := by
      intro x hx
      obtain ⟨c, hc, hcx⟩ := h₁ x (mem_cons_of_mem a hx)
      have hxa : key x < key a := (pairwise_cons.mp hd).1 x hx
      rcases mem_cons.mp hc with rfl | hc
      · exact absurd hcx (not_le_of_gt (hab ▸ hxa))
      · exact ⟨c, hc, hcx⟩
    rw [cons_append, cons_append, merge_eq h, merge_eq h,
      ih hd.of_cons h₁' (fun x hx c hc => h₂ x hx c (mem_cons_of_mem b hc)), cons_append]

theorem not_of_mem_dropWhile {p} : ∀ {l : List α}, l.Pairwise (fun a b => p b → p a) → ∀ x ∈ l.dropWhile p, p x = false
  | [], _, x, hx => absurd hx not_mem_nil
  | a :: l, h, x, hx => by
    obtain ⟨ha, hl⟩ := pairwise_cons.mp h
    cases hp : p a with
    | true =>
      rw [dropWhile_cons_of_pos hp] at hx
      exact not_of_mem_dropWhile hl x hx
    | false =>
      rw [dropWhile_cons_of_neg (by simp [hp])] at hx
      rcases mem_cons.mp hx with rfl | hx
      · exact hp
      · refine Bool.eq_false_iff.mpr fun hpx => ?_
        rw [ha x hx hpx] at hp
        cases hp

/-! ## Sorting and dropping repeated neighbours -/

variable (cmp) {κ : Type} [LinearOrder κ]

def sortDesc (l : List α) : List α := l.insertionSort fun a b => cmp b a ≠ .gt

theorem perm_sortDesc (l) : (sortDesc cmp l).Perm l := perm_insertionSort _ _

@[simp] theorem mem_sortDesc (l) : x ∈ sortDesc cmp l ↔ x ∈ l := mem_insertionSort _

variable {cmp} in
theorem pairwise_sortDesc (hkey : ∀ a b, cmp a b = compare (key a) (key b)) (l) :
    (sortDesc cmp l).Pairwise fun a b => key b ≤ key a := by
  have rel : (fun a b => cmp b a ≠ .gt) = fun a b : α => key b ≤ key a := by
    funext a b
    rw [hkey]
    exact propext compare_le_iff_le
  have total : Std.Total fun a b : α => cmp b a ≠ .gt := by
    rw [rel]
    exact ⟨fun a b => le_total (key b) (key a)⟩
  have trans : IsTrans α fun a b => cmp b a ≠ .gt := by
    rw [rel]
    exact ⟨fun a b c h₁ h₂ => le_trans h₂ h₁⟩
  have sorted := pairwise_insertionSort (fun a b => cmp b a ≠ .gt) l
  exact sorted.imp fun {a b} h => (congrFun (congrFun rel a) b).mp h

variable [DecidableEq α]

def dedup : List α → List α
  | [] => []
  | [a] => [a]
  | a :: b :: l => if a = b then dedup (b :: l) else a :: dedup (b :: l)

@[simp] theorem mem_dedup {x : α} : ∀ l, x ∈ dedup l ↔ x ∈ l
  | [] => Iff.rfl
  | [a] => Iff.rfl
  | a :: b :: l => by
    have ih := mem_dedup (x := x) (b :: l)
    by_cases h : a = b <;> simp [dedup, h, ih]

theorem dedup_sublist : ∀ l : List α, (dedup l).Sublist l
  | [] => List.Sublist.slnil
  | [_] => List.Sublist.refl _
  | a :: b :: l => by
    have ih := dedup_sublist (b :: l)
    unfold dedup
    split
    · exact ih.cons a
    · exact ih.cons_cons a

theorem desc_dedup : ∀ {l}, l.Pairwise (fun a b => key b ≤ key a) →
    (∀ x ∈ l, ∀ y ∈ l, key x = key y → x = y) → Desc key (dedup l)
  | [], _, _ => List.Pairwise.nil
  | [a], _, _ => pairwise_singleton _ a
  | a :: b :: l, hs, hu => by
    obtain ⟨ha, hs⟩ := pairwise_cons.mp hs
    have ih := desc_dedup hs fun x hx y hy => hu x (mem_cons_of_mem a hx) y (mem_cons_of_mem a hy)
    by_cases h : a = b
    · simpa [dedup, h] using ih
    · simp only [dedup, h, if_false]
      refine pairwise_cons.mpr ⟨fun x hx => ?_, ih⟩
      have hx' := (mem_dedup _).mp hx
      have hb : key b < key a := by
        refine lt_of_le_of_ne (ha b mem_cons_self) fun e => h ?_
        exact hu a mem_cons_self b (by simp) e.symm
      rcases mem_cons.mp hx' with rfl | hx'
      · exact hb
      · exact lt_of_le_of_lt ((pairwise_cons.mp hs).1 x hx') hb

theorem desc_dedup_sortDesc (hkey : ∀ a b, cmp a b = compare (key a) (key b)) {l}
    (hu : ∀ x ∈ l, ∀ y ∈ l, key x = key y → x = y) : Desc key (dedup (sortDesc cmp l)) :=
  desc_dedup (pairwise_sortDesc hkey l) (by simpa using hu)

end Nexus.Lib
