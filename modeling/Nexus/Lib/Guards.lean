import Mathlib.Logic.Function.Basic

/-!
# Locks whose guards are dropped with the phase

A phase says which locks its party holds a guard of. A guard is dropped where the next phase does not hold it (`enter`),
and a free lock can be acquired on the way (`acquire`). As long as the locks belong to those who hold them (`Coherent`),
a lock has one holder at most (`Coherent.unique`).
-/

namespace Nexus.Lib

open Function

structure Floor (ι φ κ : Type*) where
  phase : ι → φ
  owner : κ → Option ι

namespace Floor

variable {ι φ κ : Type*}

def start (p : φ) : Floor ι φ κ := ⟨fun _ => p, fun _ => none⟩

/-- The locks belong to those in whose phase they are held. -/
def Coherent (holds : φ → κ → Bool) (s : Floor ι φ κ) : Prop := ∀ i k, holds (s.phase i) k ↔ s.owner k = some i

variable {holds : φ → κ → Bool} {s : Floor ι φ κ} {i j : ι} {k : κ} {p : φ}

theorem coherent_start (h : ∀ k, holds p k = false) : Coherent holds (start p : Floor ι φ κ) := fun _ k => by
  simp [start, h k]

theorem Coherent.unique (h : Coherent holds s) (hi : holds (s.phase i) k) (hj : holds (s.phase j) k) : i = j := by
  have hown := (h i k).mp hi
  rw [(h j k).mp hj] at hown
  exact (Option.some.inj hown).symm

variable [DecidableEq ι]

theorem forall_update {R : ι → φ → Prop} (h : ∀ j, R j (s.phase j)) (hp : R i p) : ∀ j, R j (update s.phase i p j) :=
  (Function.forall_update_iff s.phase R).mpr ⟨hp, fun j _ => h j⟩

def enter (holds : φ → κ → Bool) (s : Floor ι φ κ) (i : ι) (p : φ) : Floor ι φ κ :=
  ⟨update s.phase i p, fun k => if s.owner k = some i ∧ holds p k = false then none else s.owner k⟩

def acquire [DecidableEq κ] (s : Floor ι φ κ) (i : ι) (k : κ) (p : φ) : Floor ι φ κ :=
  ⟨update s.phase i p, update s.owner k (some i)⟩

theorem Coherent.enter (h : Coherent holds s) (hp : ∀ k, holds p k → holds (s.phase i) k) :
    Coherent holds (s.enter holds i p) := by
  intro j k
  by_cases hji : j = i
  · subst hji
    simp only [Floor.enter, update_self]
    constructor
    · intro hk
      simp [hk, (h j k).mp (hp k hk)]
    · intro hown
      by_contra hk
      split at hown
      · cases hown
      · next hkept => exact hkept ⟨hown, by simpa using hk⟩
  · simp only [Floor.enter, update_of_ne hji, h j k]
    constructor
    · intro hown
      simp [hown, hji]
    · intro hown
      split at hown
      · cases hown
      · exact hown

theorem Coherent.acquire [DecidableEq κ] (h : Coherent holds s) (hfree : s.owner k = none)
    (hp : ∀ k', holds p k' ↔ k' = k ∨ holds (s.phase i) k') : Coherent holds (s.acquire i k p) := by
  intro j k'
  by_cases hk : k' = k
  · subst hk
    by_cases hji : j = i
    · subst hji
      simp [Floor.acquire, hp]
    · -- the lock was free, so nobody else holds it
      have hnot := h j k'
      rw [hfree] at hnot
      simp [Floor.acquire, update_of_ne hji, hnot, Ne.symm hji]
  · by_cases hji : j = i
    · subst hji
      simp [Floor.acquire, hp, hk, h j k']
    · simp [Floor.acquire, update_of_ne hji, update_of_ne hk, h j k']

end Floor

end Nexus.Lib
