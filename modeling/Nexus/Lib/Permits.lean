import Mathlib.Algebra.BigOperators.Group.Finset.Basic
import Mathlib.Algebra.Order.BigOperators.Group.Finset

/-!
# Parties that share the permits of a semaphore

Each party goes on by itself, and may take permits from the semaphore or give permits back. If every move of a party
leaves the free permits and its own together as many as they were, no permit is lost or made (`Conserved`). Then the
parties hold at most what there is (`Conserved.sum_le`), and if none is free one of them holds one
(`Conserved.exists_holder`).
-/

namespace Nexus.Lib

open Finset Function

structure Sharing (ι σ : Type*) where
  permits : Nat
  party : ι → σ

namespace Sharing

variable {ι σ : Type*} [Fintype ι]

/-- Free permits and those that are held are all there are. -/
def Conserved (held : σ → Nat) (total : Nat) (s : Sharing ι σ) : Prop := s.permits + ∑ i, held (s.party i) = total

variable {held : σ → Nat} {total : Nat} {s : Sharing ι σ}

theorem Conserved.sum_le (h : Conserved held total s) : ∑ i, held (s.party i) ≤ total := by
  unfold Conserved at h
  omega

theorem Conserved.exists_holder (h : Conserved held total s) (hnone : s.permits = 0) (htot : 0 < total) :
    ∃ i, 0 < held (s.party i) := by
  unfold Conserved at h
  rw [hnone, Nat.zero_add] at h
  obtain ⟨i, -, hi⟩ := exists_ne_zero_of_sum_ne_zero (h ▸ htot.ne')
  exact ⟨i, Nat.pos_of_ne_zero hi⟩

variable [DecidableEq ι]

def move (s : Sharing ι σ) (i : ι) (permits : Nat) (p : σ) : Sharing ι σ := ⟨permits, update s.party i p⟩

variable {i : ι} {n : Nat} {p : σ}

omit [Fintype ι] in
theorem forall_move (R : ι → σ → Prop) (h : ∀ j, j ≠ i → R j (s.party j)) (hp : R i p) :
    ∀ j, R j ((s.move i n p).party j) :=
  (forall_update_iff s.party R).mpr ⟨hp, h⟩

theorem sum_move (f : ι → σ → Nat) :
    ∑ j, f j ((s.move i n p).party j) + f i (s.party i) = ∑ j, f j (s.party j) + f i p := by
  have other : ∑ j ∈ Finset.univ.erase i, f j ((s.move i n p).party j) = ∑ j ∈ Finset.univ.erase i, f j (s.party j) :=
    sum_congr rfl fun j hj => congrArg (f j) (update_of_ne (ne_of_mem_erase hj) _ _)
  have hown : (s.move i n p).party i = p := update_self _ _ _
  rw [← add_sum_erase _ _ (mem_univ i), other, hown, ← add_sum_erase _ _ (mem_univ i)]
  omega

theorem sum_move_lt (f : ι → σ → Nat) (h : f i p < f i (s.party i)) :
    ∑ j, f j ((s.move i n p).party j) < ∑ j, f j (s.party j) := by
  have hsum := sum_move (s := s) (i := i) (n := n) (p := p) f
  omega

theorem Conserved.move (h : Conserved held total s) (hmove : n + held p = s.permits + held (s.party i)) :
    Conserved held total (s.move i n p) := by
  have hsum := sum_move (s := s) (i := i) (n := n) (p := p) fun _ => held
  unfold Conserved at h ⊢
  change n + _ = total
  omega

end Sharing

end Nexus.Lib
